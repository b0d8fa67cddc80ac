import Mathlib.Logic.Function.Basic
import PamDesktop.Foundations.Transition
import PamDesktop.Updater.CrashSafety
import PamDesktop.Updater.Release

/-!
# The updater of a running host

`Updater::check`, `download` and `install` may be called at any time and from any thread. Their
steps under the lock are the events of one system, so that calls interleave in every way. The gate
in `begin` lets one of them work at a time, but a download has already copied its candidate when it
comes to the gate. What the helper is given is a verified pair as long as that copy is up to date.
-/

namespace PamDesktop.Updater

open Foundations Protocol

/-- `UpdateSnapshot`. -/
structure UpdateSnapshot where
  state : UpdateState
  currentVersion : String
  availableVersion : Option String
  downloadedBytes : Nat
  totalBytes : Nat
  notesUrl : Option String
  error : Option String
deriving DecidableEq

/-- The path of a staged archive. Every stage has a random name, so the number of stages made
before stands for it. -/
abbrev ArchivePath := Nat

/-- `InternalState`. -/
structure InternalState where
  snapshot : UpdateSnapshot
  candidate : Option Candidate
  archive : Option ArchivePath
deriving DecidableEq

/-- What an updater is made with. -/
structure UpdaterInner where
  applicationId : String
  currentVersion : String
  config : Option UpdateConfig
  bundleRoot : Option String

/-- `Updater::prepare`. -/
def prepare (manifest : ApplicationManifest) (bundleRoot : Option String) :
    UpdaterInner × InternalState :=
  (⟨manifest.identifier, manifest.version, manifest.updates, bundleRoot⟩,
    { snapshot :=
        { state := if manifest.updates.isSome then .idle else .disabled
          currentVersion := manifest.version
          availableVersion := none
          downloadedBytes := 0
          totalBytes := 0
          notesUrl := none
          error := none }
      candidate := none
      archive := none })

/-- `Updater::config`. -/
def UpdaterInner.configured (updater : UpdaterInner) : Except UpdateError UpdateConfig :=
  match updater.config with
  | some config => .ok config
  | none => .error ⟨.updateDisabled, "Updates are not configured for this application."⟩

/-- The states in which an operation is at work. -/
def busyState : UpdateState → Bool
  | .checking | .downloading | .applying => true
  | _ => false

namespace InternalState

/-- `Updater::begin`. -/
def begin (s : InternalState) (next : UpdateState) : Except UpdateError InternalState :=
  if busyState s.snapshot.state then unavailable "Another update operation is already running."
  else
    .ok { s with snapshot := { s.snapshot with
      state := next
      error := none
      downloadedBytes := if next = .downloading then 0 else s.snapshot.downloadedBytes } }

/-- `Updater::fail`. -/
def fail (s : InternalState) (error : UpdateError) : InternalState :=
  { s with snapshot := { s.snapshot with state := .failed, error := some error.message } }

/-- The end of a successful `check`. -/
def checked (s : InternalState) : Option Candidate → InternalState
  | some candidate =>
      { snapshot := { s.snapshot with
          state := .available
          availableVersion := some candidate.version
          downloadedBytes := 0
          totalBytes := candidate.artifact.bytes
          notesUrl := candidate.notesUrl
          error := none }
        candidate := some candidate
        archive := none }
  | none =>
      { snapshot := { s.snapshot with
          state := .upToDate
          availableVersion := none
          downloadedBytes := 0
          totalBytes := 0
          notesUrl := none
          error := none }
        candidate := none
        archive := none }

/-- The end of a successful `download`. -/
def downloaded (s : InternalState) (candidate : Candidate) (archive : ArchivePath) :
    InternalState :=
  { s with
    snapshot := { s.snapshot with
      state := .ready, downloadedBytes := candidate.artifact.bytes, error := none }
    archive := some archive }

/-- The copy that `download` takes. -/
def forDownload (s : InternalState) : Except UpdateError Candidate :=
  match s.candidate with
  | some candidate => .ok candidate
  | none => unavailable "No update is available. Check for updates first."

/-- The copies that `install` takes. -/
def forInstall (s : InternalState) : Except UpdateError (ArchivePath × Candidate) :=
  match s.archive, s.candidate with
  | none, _ => unavailable "No verified update has been downloaded."
  | some _, none => unavailable "The staged update has no matching release metadata."
  | some archive, some candidate => .ok (archive, candidate)

end InternalState

/-- A call in progress, between two acquisitions of the lock. -/
inductive Operation where
  /-- `check` in `check_inner` -/
  | checking
  /-- `download` with its copy, before `begin` -/
  | copied (candidate : Candidate)
  /-- `download_inner` before there is a file -/
  | fetching (candidate : Candidate)
  /-- `download_inner` in its loop -/
  | receiving (candidate : Candidate) (archive : ArchivePath) (written : List UInt8)
  /-- `install` with its copies, before `begin` -/
  | selected (archive : ArchivePath) (candidate : Candidate)
  /-- `install` before the helper is launched -/
  | launching (archive : ArchivePath) (candidate : Candidate)
deriving DecidableEq

/-- The state of the snapshot that an operation at work has set. -/
def Operation.code : Operation → Option UpdateState
  | .checking => some .checking
  | .fetching _ | .receiving _ _ _ => some .downloading
  | .launching _ _ => some .applying
  | .copied _ | .selected _ _ => none

/-- An updater, the calls in progress and the archives in their stages. Of the last two, nothing is
read by the code: what `download_inner` has verified at a path, and what helpers were launched
with. -/
structure Session where
  shared : InternalState
  operations : List Operation
  files : ArchivePath → Option (List UInt8)
  nextStage : ArchivePath
  verified : ArchivePath → Option (List UInt8)
  launched : List (ArchivePath × String)

/-- A new updater. -/
def Session.prepared (shared : InternalState) : Session where
  shared := shared
  operations := []
  files _ := none
  nextStage := 0
  verified _ := none
  launched := []

/-- The steps of the three functions. An operation is named by all that it knows. -/
inductive SessionEvent where
  | checkBegin
  | checkEnd (fetched : Except UpdateError (List UInt8))
  | downloadCopy
  | downloadBegin (candidate : Candidate)
  | downloadOpen (candidate : Candidate) (contentLength : Option Nat)
  | downloadRead (candidate : Candidate) (archive : ArchivePath) (written : List UInt8)
      (read : Except String (List UInt8))
  | downloadEnd (candidate : Candidate) (archive : ArchivePath) (written : List UInt8)
  /-- any other error of `download_inner` -/
  | downloadStop (operation : Operation) (error : UpdateError)
  | installCopy
  | installBegin (archive : ArchivePath) (candidate : Candidate)
  | launch (archive : ArchivePath) (candidate : Candidate) (result : Except UpdateError Unit)
  /-- a stage is pruned, by this updater or another -/
  | prune (archive : ArchivePath)

namespace Session

/-- An operation returns and leaves the shared state like this. -/
def finish (s : Session) (operation : Operation) (shared : InternalState) : Session :=
  { s with shared, operations := s.operations.erase operation }

/-- A call starts. -/
def enter (s : Session) (operation : Operation) : Session :=
  { s with operations := operation :: s.operations }

/-- An operation goes on as another and leaves the shared state like this. -/
def proceed (s : Session) (operation next : Operation) (shared : InternalState) : Session :=
  (s.finish operation shared).enter next

/-- A file is written, if it has not been removed. -/
def write (s : Session) (archive : ArchivePath) (bytes : List UInt8) : Session :=
  { s with files := Function.update s.files archive ((s.files archive).map fun _ => bytes) }

end Session

/-- What each step does. A step of a call needs the call to be there. -/
def sessionStep (host : Host) (tools : FeedTools) (updater : UpdaterInner) (s : Session) :
    SessionEvent → Option Session
  | .checkBegin =>
      match updater.configured, s.shared.begin .checking with
      | .ok _, .ok shared => some ({ s with shared }.enter .checking)
      | _, _ => some s
  | .checkEnd fetched =>
      match updater.config with
      | some config =>
          if .checking ∈ s.operations then
            match checkInner host.toBuild tools updater.applicationId updater.currentVersion config
                fetched with
            | .ok candidate => some (s.finish .checking (s.shared.checked candidate))
            | .error error => some (s.finish .checking (s.shared.fail error))
          else none
      | none => none
  | .downloadCopy =>
      match s.shared.forDownload with
      | .ok candidate => some (s.enter (.copied candidate))
      | .error _ => some s
  | .downloadBegin candidate =>
      if .copied candidate ∈ s.operations then
        match s.shared.begin .downloading with
        | .ok shared => some (s.proceed (.copied candidate) (.fetching candidate) shared)
        | .error _ => some (s.finish (.copied candidate) s.shared)
      else none
  | .downloadOpen candidate contentLength =>
      if .fetching candidate ∈ s.operations then
        match checkAnnounced candidate.artifact ⟨contentLength, []⟩ with
        | .ok () =>
            some { s.proceed (.fetching candidate) (.receiving candidate s.nextStage []) s.shared with
              files := Function.update s.files s.nextStage (some [])
              nextStage := s.nextStage + 1 }
        | .error error => some (s.finish (.fetching candidate) (s.shared.fail error))
      else none
  | .downloadRead candidate archive written read =>
      if .receiving candidate archive written ∈ s.operations then
        match receiveChunk candidate.artifact written read with
        | .ok written' =>
            -- `self.lock_state().snapshot.downloaded_bytes = total`
            some ((s.write archive written').proceed (.receiving candidate archive written)
              (.receiving candidate archive written')
              { s.shared with snapshot :=
                { s.shared.snapshot with downloadedBytes := written'.length } })
        | .error error =>
            some (s.finish (.receiving candidate archive written) (s.shared.fail error))
      else none
  | .downloadEnd candidate archive written =>
      if .receiving candidate archive written ∈ s.operations then
        match checkArchive host candidate.artifact written with
        | .ok () =>
            some { s.finish (.receiving candidate archive written)
                (s.shared.downloaded candidate archive) with
              verified := Function.update s.verified archive (some written) }
        | .error error =>
            some (s.finish (.receiving candidate archive written) (s.shared.fail error))
      else none
  | .downloadStop operation error =>
      if operation ∈ s.operations ∧ operation.code = some .downloading then
        some (s.finish operation (s.shared.fail error))
      else none
  | .installCopy =>
      match s.shared.forInstall with
      | .ok (archive, candidate) => some (s.enter (.selected archive candidate))
      | .error _ => some s
  | .installBegin archive candidate =>
      if .selected archive candidate ∈ s.operations then
        match updater.bundleRoot, s.shared.begin .applying with
        | some _, .ok shared =>
            some (s.proceed (.selected archive candidate) (.launching archive candidate) shared)
        | _, _ => some (s.finish (.selected archive candidate) s.shared)
      else none
  | .launch archive candidate result =>
      if .launching archive candidate ∈ s.operations then
        match result with
        | .ok () =>
            some { s.finish (.launching archive candidate) s.shared with
              launched := (archive, candidate.artifact.sha256) :: s.launched }
        | .error error =>
            some (s.finish (.launching archive candidate) (s.shared.fail error))
      else none
  | .prune archive => some { s with files := Function.update s.files archive none }

/-- An updater as a system. -/
def session (host : Host) (tools : FeedTools) (updater : UpdaterInner) :
    System Session SessionEvent := ⟨sessionStep host tools updater⟩

/-- `download_inner` has verified the archive against the candidate, and nothing else has been
written to its path since. -/
def VerifiedFor (host : Host) (s : Session) (archive : ArchivePath) (artifact : UpdateArtifact) :
    Prop :=
  ∃ bytes, s.verified archive = some bytes ∧ Matches host artifact bytes ∧
    (s.files archive = some bytes ∨ s.files archive = none)

/-- An archive is only there with the candidate it was verified against, and every helper was
launched with an archive and its digest. -/
structure Paired (host : Host) (s : Session) : Prop where
  archive : ∀ archive, s.shared.archive = some archive →
    ∃ candidate, s.shared.candidate = some candidate ∧ VerifiedFor host s archive candidate.artifact
  launched : ∀ archive sha256, (archive, sha256) ∈ s.launched →
    ∃ artifact, VerifiedFor host s archive artifact ∧ sha256 = artifact.sha256

/-- A download that passes the gate has a copy of the current candidate. -/
def UpToDate (s : Session) : SessionEvent → Prop
  | .downloadBegin candidate =>
      busyState s.shared.snapshot.state = false → s.shared.candidate = some candidate
  | _ => True

instance (s : Session) : ∀ event, Decidable (UpToDate s event)
  | .downloadBegin candidate => inferInstanceAs (Decidable
      (busyState s.shared.snapshot.state = false → s.shared.candidate = some candidate))
  | .checkBegin | .checkEnd _ | .downloadCopy | .downloadOpen _ _ | .downloadRead _ _ _ _
  | .downloadEnd _ _ _ | .downloadStop _ _ | .installCopy | .installBegin _ _ | .launch _ _ _
  | .prune _ => .isTrue trivial

/-! ## The gate

At most one operation is at work, and then the snapshot says so. -/

/-- The snapshot agrees with the operation at work, of which there is at most one. -/
structure Gated (s : Session) : Prop where
  state : ∀ operation ∈ s.operations, ∀ code, operation.code = some code →
    s.shared.snapshot.state = code
  single : s.operations.Pairwise fun first second => first.code = none ∨ second.code = none

variable {host : Host} {s s' : Session} {operation : Operation}

/-- While one operation is at work, the others are not. -/
theorem Gated.others_idle (h : Gated s) (hmem : operation ∈ s.operations)
    (hwork : operation.code ≠ none) :
    ∀ other ∈ s.operations.erase operation, other.code = none := by
  intro other hother
  have hsym : ∀ {first second : Operation}, (first.code = none ∨ second.code = none) →
      (second.code = none ∨ first.code = none) := Or.symm
  have hpairs := (List.Perm.pairwise_iff hsym (List.perm_cons_erase hmem)).mp h.single
  rcases (List.pairwise_cons.mp hpairs).1 other hother with hnone | hnone
  · exact absurd hnone hwork
  · exact hnone

/-- Behind an open gate no operation is at work. -/
theorem Gated.all_idle (h : Gated s) (hopen : busyState s.shared.snapshot.state = false) :
    ∀ operation ∈ s.operations, operation.code = none := by
  intro operation hmem
  cases hcode : operation.code with
  | none => rfl
  | some code =>
      have hstate := h.state operation hmem code hcode
      rw [hstate] at hopen
      cases operation <;> simp only [Operation.code, Option.some.injEq, reduceCtorEq] at hcode <;>
        subst hcode <;> cases hopen

/-- An idle operation can enter at any time. -/
theorem Gated.enter (h : Gated s) (hidle : operation.code = none) : Gated (s.enter operation) where
  state other hother code hcode := by
    rcases List.mem_cons.mp hother with rfl | hother
    · rw [hidle] at hcode
      cases hcode
    · exact h.state other hother code hcode
  single := List.pairwise_cons.mpr ⟨fun _ _ => .inl hidle, h.single⟩

/-- When no operation is at work, one can enter in a state of the snapshot that is its own. -/
theorem gated_enter (hidle : ∀ other ∈ s.operations, other.code = none)
    (hown : ∀ code, operation.code = some code → s.shared.snapshot.state = code) :
    Gated (s.enter operation) where
  state other hother code hcode := by
    rcases List.mem_cons.mp hother with rfl | hother
    · exact hown code hcode
    · rw [hidle other hother] at hcode
      cases hcode
  single := by
    refine List.pairwise_cons.mpr ⟨fun other hother => .inr (hidle other hother), ?_⟩
    exact List.pairwise_of_forall_mem_list fun first hfirst _ _ => .inl (hidle first hfirst)

/-- An operation can return without a change to the snapshot's state. -/
theorem Gated.finish (h : Gated s) (operation : Operation) (shared : InternalState)
    (hstate : shared.snapshot.state = s.shared.snapshot.state) :
    Gated (s.finish operation shared) where
  state other hother code hcode :=
    hstate.trans (h.state other (List.mem_of_mem_erase hother) code hcode)
  single := h.single.sublist List.erase_sublist

/-- The gate does not matter while no operation is at work. -/
theorem gated_of_idle (hidle : ∀ operation ∈ s.operations, operation.code = none) : Gated s where
  state operation hmem code hcode := by
    rw [hidle operation hmem] at hcode
    cases hcode
  single := List.pairwise_of_forall_mem_list fun first hfirst _ _ => .inl (hidle first hfirst)

/-! ## The pair of candidate and archive -/

/-- What an operation relies on. -/
def Held (host : Host) (s : Session) : Operation → Prop
  | .checking | .copied _ => True
  | .fetching candidate => s.shared.candidate = some candidate
  | .receiving candidate archive written => s.shared.candidate = some candidate ∧
      s.verified archive = none ∧ archive < s.nextStage ∧
      (s.files archive = some written ∨ s.files archive = none)
  | .selected archive candidate | .launching archive candidate =>
      VerifiedFor host s archive candidate.artifact

/-- What holds in every state of a session in which downloads have up-to-date copies. -/
structure Consistent (host : Host) (s : Session) : Prop where
  gated : Gated s
  held : ∀ operation ∈ s.operations, Held host s operation
  fresh : ∀ archive, s.nextStage ≤ archive → s.verified archive = none
  paired : Paired host s

/-- What was verified stays so, and its files are at most removed. -/
structure Keeps (s s' : Session) : Prop where
  verified : ∀ archive bytes, s.verified archive = some bytes →
    s'.verified archive = some bytes ∧
      (s'.files archive = s.files archive ∨ s'.files archive = none)

theorem keeps_of_removed (hverified : s'.verified = s.verified)
    (hfiles : ∀ archive, s'.files archive = s.files archive ∨ s'.files archive = none) :
    Keeps s s' :=
  ⟨fun archive _ h => ⟨hverified ▸ h, hfiles archive⟩⟩

theorem Keeps.verified_for (h : Keeps s s') {archive : ArchivePath} {artifact : UpdateArtifact}
    (hverified : VerifiedFor host s archive artifact) : VerifiedFor host s' archive artifact := by
  obtain ⟨bytes, hbytes, hmatches, hfile⟩ := hverified
  obtain ⟨hbytes', hfile'⟩ := h.verified archive bytes hbytes
  refine ⟨bytes, hbytes', hmatches, ?_⟩
  rcases hfile' with heq | hgone
  · rw [heq]
    exact hfile
  · exact .inr hgone

/-- A step that keeps the pair of candidate and archive. -/
theorem Paired.keep (h : Paired host s) (hkeeps : Keeps s s')
    (hcandidate : s'.shared.candidate = s.shared.candidate)
    (harchive : s'.shared.archive = s.shared.archive) (hlaunched : s'.launched = s.launched) :
    Paired host s' where
  archive archive hsome := by
    obtain ⟨candidate, hcurrent, hverified⟩ := h.archive archive (harchive ▸ hsome)
    exact ⟨candidate, hcandidate.trans hcurrent, hkeeps.verified_for hverified⟩
  launched archive sha256 hmem := by
    obtain ⟨artifact, hverified, hdigest⟩ := h.launched archive sha256 (hlaunched ▸ hmem)
    exact ⟨artifact, hkeeps.verified_for hverified, hdigest⟩

/-- An operation that is not at work does not rely on the current candidate. -/
theorem Held.keep_idle (h : Held host s operation) (hkeeps : Keeps s s')
    (hidle : operation.code = none) : Held host s' operation := by
  cases operation with
  | copied candidate => trivial
  | selected archive candidate => exact hkeeps.verified_for h
  | checking | fetching _ | receiving _ _ _ | launching _ _ => cases hidle

/-- A step that leaves the files in progress and the candidate alone. -/
theorem Held.keep (h : Held host s operation)
    (hcandidate : s'.shared.candidate = s.shared.candidate) (hstage : s'.nextStage = s.nextStage)
    (hverified : s'.verified = s.verified)
    (hfiles : ∀ archive, s'.files archive = s.files archive ∨ s'.files archive = none) :
    Held host s' operation := by
  have hkeeps := keeps_of_removed hverified hfiles
  cases operation with
  | checking | copied _ => trivial
  | fetching candidate => exact hcandidate.trans h
  | receiving candidate archive written =>
      obtain ⟨hcurrent, hunverified, hmade, hfile⟩ := h
      refine ⟨hcandidate.trans hcurrent, hverified ▸ hunverified, hstage ▸ hmade, ?_⟩
      rcases hfiles archive with heq | hgone
      · rw [heq]
        exact hfile
      · exact .inr hgone
  | selected archive candidate => exact hkeeps.verified_for h
  | launching archive candidate => exact hkeeps.verified_for h

/-- A call that starts relies on what is there. -/
theorem Consistent.enter (h : Consistent host s) (hgated : Gated (s.enter operation))
    (hheld : Held host s operation) : Consistent host (s.enter operation) where
  gated := hgated
  held other hother := by
    have hkeep {other : Operation} (hheld : Held host s other) :
        Held host (s.enter operation) other :=
      hheld.keep rfl rfl rfl fun _ => .inl rfl
    rcases List.mem_cons.mp hother with rfl | hother
    · exact hkeep hheld
    · exact hkeep (h.held other hother)
  fresh := h.fresh
  paired := h.paired.keep (keeps_of_removed rfl fun _ => .inl rfl) rfl rfl rfl

/-- An operation returns without having changed candidate or archive. -/
theorem Consistent.finish (h : Consistent host s) {shared : InternalState}
    (hcandidate : shared.candidate = s.shared.candidate)
    (harchive : shared.archive = s.shared.archive)
    (hgated : Gated (s.finish operation shared)) : Consistent host (s.finish operation shared) where
  gated := hgated
  held other hother :=
    (h.held other (List.mem_of_mem_erase hother)).keep hcandidate rfl rfl fun _ => .inl rfl
  fresh := h.fresh
  paired := h.paired.keep (keeps_of_removed rfl fun _ => .inl rfl) hcandidate harchive rfl

/-- An operation returns and leaves the shared state alone. -/
theorem Consistent.leave (h : Consistent host s) (operation : Operation) :
    Consistent host (s.finish operation s.shared) :=
  h.finish rfl rfl (h.gated.finish operation s.shared rfl)

/-- An operation at work fails. -/
theorem Consistent.fail (h : Consistent host s) (hmem : operation ∈ s.operations)
    (hwork : operation.code ≠ none) (error : UpdateError) :
    Consistent host (s.finish operation (s.shared.fail error)) :=
  h.finish rfl rfl (gated_of_idle (h.gated.others_idle hmem hwork))

/-- While no operation is at work, only the pair matters. -/
theorem Consistent.rest (h : Consistent host s)
    (hidle : ∀ operation ∈ s.operations, operation.code = none)
    (hoperations : s'.operations = s.operations) (hkeeps : Keeps s s')
    (hfresh : ∀ archive, s'.nextStage ≤ archive → s'.verified archive = none)
    (hpaired : Paired host s') : Consistent host s' where
  gated := gated_of_idle fun operation hmem => hidle operation (hoperations ▸ hmem)
  held operation hmem := by
    rw [hoperations] at hmem
    exact (h.held operation hmem).keep_idle hkeeps (hidle operation hmem)
  fresh := hfresh
  paired := hpaired

/-- What `begin` leaves alone, and that it needs an open gate. -/
theorem begin_ok {shared shared' : InternalState} {next : UpdateState}
    (h : shared.begin next = .ok shared') :
    busyState shared.snapshot.state = false ∧ shared'.snapshot.state = next ∧
      shared'.candidate = shared.candidate ∧ shared'.archive = shared.archive := by
  unfold InternalState.begin at h
  split at h
  · cases h
  · rename_i hopen
    obtain rfl := Except.ok.inj h
    exact ⟨by simpa using hopen, rfl, rfl, rfl⟩

/-- `install` copies what belongs together at that moment. -/
theorem for_install_ok {shared : InternalState} {archive : ArchivePath} {candidate : Candidate}
    (h : shared.forInstall = .ok (archive, candidate)) :
    shared.archive = some archive ∧ shared.candidate = some candidate := by
  unfold InternalState.forInstall at h
  split at h
  · cases h
  · cases h
  · rename_i harchive hcandidate
    obtain ⟨rfl, rfl⟩ := Prod.mk.inj (Except.ok.inj h)
    exact ⟨harchive, hcandidate⟩

/-- A check that ends takes the archive away with the candidate it belongs to. -/
theorem Consistent.checked (h : Consistent host s) (hmem : .checking ∈ s.operations)
    (candidate : Option Candidate) :
    Consistent host (s.finish .checking (s.shared.checked candidate)) := by
  have hothers := h.gated.others_idle hmem (by simp [Operation.code])
  have hkeeps : Keeps s (s.finish .checking (s.shared.checked candidate)) :=
    keeps_of_removed rfl fun _ => .inl rfl
  refine (h.leave .checking).rest hothers rfl ⟨hkeeps.verified⟩ h.fresh ⟨fun archive hsome => ?_, ?_⟩
  · cases candidate <;> cases hsome
  · intro archive sha256 hlaunched
    obtain ⟨artifact, hverified, hdigest⟩ := h.paired.launched archive sha256 hlaunched
    exact ⟨artifact, hkeeps.verified_for hverified, hdigest⟩

/-- A new stage holds an empty file. -/
theorem Consistent.opened (h : Consistent host s) {candidate : Candidate}
    (hmem : .fetching candidate ∈ s.operations) :
    Consistent host
      { s.proceed (.fetching candidate) (.receiving candidate s.nextStage []) s.shared with
        files := Function.update s.files s.nextStage (some [])
        nextStage := s.nextStage + 1 } := by
  have hothers := h.gated.others_idle hmem (by simp [Operation.code])
  have hcandidate : s.shared.candidate = some candidate := h.held _ hmem
  have hstate := h.gated.state _ hmem .downloading rfl
  have hunverified := h.fresh s.nextStage (Nat.le_refl _)
  have hkeeps : Keeps (s.finish (.fetching candidate) s.shared)
      { s.finish (.fetching candidate) s.shared with
        files := Function.update s.files s.nextStage (some [])
        nextStage := s.nextStage + 1 } := by
    refine ⟨fun archive bytes hverified => ⟨hverified, .inl ?_⟩⟩
    have hne : archive ≠ s.nextStage := by
      rintro rfl
      rw [show s.verified _ = some bytes from hverified] at hunverified
      cases hunverified
    exact Function.update_of_ne hne _ _
  have hopened : Consistent host { s.finish (.fetching candidate) s.shared with
      files := Function.update s.files s.nextStage (some [])
      nextStage := s.nextStage + 1 } :=
    (h.leave (.fetching candidate)).rest hothers rfl hkeeps
      (fun archive hle => h.fresh archive (Nat.le_of_succ_le hle))
      ((h.leave _).paired.keep hkeeps rfl rfl rfl)
  refine hopened.enter (gated_enter hothers fun code hcode => ?_) ?_
  · obtain rfl := Option.some.inj hcode
    exact hstate
  · exact ⟨hcandidate, hunverified, Nat.lt_succ_self _, .inl (Function.update_self _ _ _)⟩

/-- A chunk goes to a file that nobody relies on. -/
theorem Consistent.received (h : Consistent host s) {candidate : Candidate} {archive : ArchivePath}
    {written : List UInt8} (hmem : .receiving candidate archive written ∈ s.operations)
    (written' : List UInt8) {shared : InternalState}
    (hcandidate : shared.candidate = s.shared.candidate)
    (harchive : shared.archive = s.shared.archive)
    (hstate : shared.snapshot.state = s.shared.snapshot.state) :
    Consistent host ((s.write archive written').proceed (.receiving candidate archive written)
      (.receiving candidate archive written') shared) := by
  have hothers := h.gated.others_idle hmem (by simp [Operation.code])
  obtain ⟨hcurrent, hunverified, hmade, hfile⟩ := h.held _ hmem
  have hleft := h.finish hcandidate harchive (gated_of_idle hothers)
  have hkeeps : Keeps (s.finish (.receiving candidate archive written) shared)
      ((s.finish (.receiving candidate archive written) shared).write archive written') := by
    refine ⟨fun other bytes hverified => ⟨hverified, .inl ?_⟩⟩
    have hne : other ≠ archive := by
      rintro rfl
      rw [show s.verified _ = some bytes from hverified] at hunverified
      cases hunverified
    exact Function.update_of_ne hne _ _
  have hwritten : Consistent host
      ((s.finish (.receiving candidate archive written) shared).write archive written') :=
    hleft.rest hothers rfl hkeeps h.fresh (hleft.paired.keep hkeeps rfl rfl rfl)
  refine hwritten.enter (gated_enter hothers fun code hcode => ?_) ?_
  · obtain rfl := Option.some.inj hcode
    exact hstate.trans (h.gated.state _ hmem .downloading rfl)
  · refine ⟨hcandidate.trans hcurrent, hunverified, hmade, ?_⟩
    have hupdate : ((s.finish (.receiving candidate archive written) shared).write archive
        written').files archive = (s.files archive).map fun _ => written' :=
      Function.update_self _ _ _
    rcases hfile with hsome | hnone
    · exact .inl (hupdate.trans (by rw [hsome]; rfl))
    · exact .inr (hupdate.trans (by rw [hnone]; rfl))

/-- A download that ends leaves an archive verified against the current candidate. -/
theorem Consistent.downloaded (h : Consistent host s) {candidate : Candidate}
    {archive : ArchivePath} {written : List UInt8}
    (hmem : .receiving candidate archive written ∈ s.operations)
    (hmatches : Matches host candidate.artifact written) :
    Consistent host
      { s.finish (.receiving candidate archive written) (s.shared.downloaded candidate archive) with
        verified := Function.update s.verified archive (some written) } := by
  have hothers := h.gated.others_idle hmem (by simp [Operation.code])
  obtain ⟨hcurrent, hunverified, hmade, hfile⟩ := h.held _ hmem
  have hkeeps : Keeps s
      { s.finish (.receiving candidate archive written) (s.shared.downloaded candidate archive) with
        verified := Function.update s.verified archive (some written) } := by
    refine ⟨fun other bytes hverified => ⟨?_, .inl rfl⟩⟩
    have hne : other ≠ archive := by
      rintro rfl
      rw [hverified] at hunverified
      cases hunverified
    exact (Function.update_of_ne hne _ _).trans hverified
  refine (h.leave _).rest hothers rfl ⟨hkeeps.verified⟩ (fun other hle => ?_)
    ⟨fun other hsome => ?_, ?_⟩
  · have hne : other ≠ archive := by
      rintro rfl
      exact Nat.lt_irrefl _ (Nat.lt_of_lt_of_le hmade hle)
    exact (Function.update_of_ne hne _ _).trans (h.fresh other hle)
  · obtain rfl := Option.some.inj hsome
    exact ⟨candidate, hcurrent, written, Function.update_self _ _ _, hmatches, hfile⟩
  · intro other sha256 hlaunched
    obtain ⟨artifact, hverified, hdigest⟩ := h.paired.launched other sha256 hlaunched
    exact ⟨artifact, hkeeps.verified_for hverified, hdigest⟩

/-- A helper is launched with an archive and its digest. -/
theorem Consistent.launched (h : Consistent host s) {archive : ArchivePath} {candidate : Candidate}
    (hmem : .launching archive candidate ∈ s.operations) :
    Consistent host { s.finish (.launching archive candidate) s.shared with
      launched := (archive, candidate.artifact.sha256) :: s.launched } := by
  have hothers := h.gated.others_idle hmem (by simp [Operation.code])
  have hpair : VerifiedFor host s archive candidate.artifact := h.held _ hmem
  refine (h.leave _).rest hothers rfl (keeps_of_removed rfl fun _ => .inl rfl) h.fresh
    ⟨h.paired.archive, fun other sha256 hlaunched => ?_⟩
  rcases List.mem_cons.mp hlaunched with heq | hlaunched
  · obtain ⟨rfl, rfl⟩ := Prod.mk.inj heq
    exact ⟨candidate.artifact, hpair, rfl⟩
  · exact h.paired.launched other sha256 hlaunched

/-- Removing an archive breaks nothing. -/
theorem Consistent.pruned (h : Consistent host s) (archive : ArchivePath) :
    Consistent host { s with files := Function.update s.files archive none } := by
  have hfiles : ∀ other, Function.update s.files archive none other = s.files other ∨
      Function.update s.files archive none other = none := by
    intro other
    by_cases heq : other = archive
    · exact .inr (by rw [heq, Function.update_self])
    · exact .inl (Function.update_of_ne heq _ _)
  exact ⟨⟨h.gated.state, h.gated.single⟩,
    fun operation hmem => (h.held operation hmem).keep rfl rfl rfl hfiles, h.fresh,
    h.paired.keep (keeps_of_removed rfl hfiles) rfl rfl rfl⟩

/-- Every step of a session keeps the invariant, if it is no download with an outdated copy. -/
theorem session_step_consistent {tools : FeedTools} {updater : UpdaterInner} {event : SessionEvent}
    (hs : Consistent host s) (hcopy : UpToDate s event)
    (h : sessionStep host tools updater s event = some s') : Consistent host s' := by
  cases event with
  | checkBegin =>
      simp only [sessionStep] at h
      split at h
      · rename_i shared _ hbegin
        obtain rfl := Option.some.inj h
        obtain ⟨hopen, hstate, hcandidate, harchive⟩ := begin_ok hbegin
        have hidle := hs.gated.all_idle hopen
        have hkeeps : Keeps s { s with shared } := keeps_of_removed rfl fun _ => .inl rfl
        have hbegun : Consistent host { s with shared } :=
          hs.rest hidle rfl hkeeps hs.fresh (hs.paired.keep hkeeps hcandidate harchive rfl)
        refine hbegun.enter (gated_enter hidle fun code hcode => ?_) trivial
        obtain rfl := Option.some.inj hcode
        exact hstate
      · obtain rfl := Option.some.inj h
        exact hs
  | checkEnd fetched =>
      simp only [sessionStep] at h
      split at h
      · split at h
        · rename_i hmem
          split at h
          · obtain rfl := Option.some.inj h
            exact hs.checked hmem _
          · obtain rfl := Option.some.inj h
            exact hs.fail hmem (by simp [Operation.code]) _
        · cases h
      · cases h
  | downloadCopy =>
      simp only [sessionStep] at h
      split at h
      · obtain rfl := Option.some.inj h
        exact hs.enter (hs.gated.enter rfl) trivial
      · obtain rfl := Option.some.inj h
        exact hs
  | downloadBegin candidate =>
      simp only [sessionStep] at h
      split at h
      · rename_i hmem
        split at h
        · rename_i shared hbegin
          obtain rfl := Option.some.inj h
          obtain ⟨hopen, hstate, hcandidate, harchive⟩ := begin_ok hbegin
          have hidle : ∀ other ∈ s.operations.erase (.copied candidate), other.code = none :=
            fun other hother => hs.gated.all_idle hopen other (List.mem_of_mem_erase hother)
          have hleft := hs.finish hcandidate harchive (gated_of_idle hidle)
          -- the candidate that the gate was passed with is still the current one
          refine hleft.enter (gated_enter hidle fun code hcode => ?_) (hcandidate.trans (hcopy hopen))
          obtain rfl := Option.some.inj hcode
          exact hstate
        · obtain rfl := Option.some.inj h
          exact hs.leave _
      · cases h
  | downloadOpen candidate contentLength =>
      simp only [sessionStep] at h
      split at h
      · rename_i hmem
        split at h
        · obtain rfl := Option.some.inj h
          exact hs.opened hmem
        · obtain rfl := Option.some.inj h
          exact hs.fail hmem (by simp [Operation.code]) _
      · cases h
  | downloadRead candidate archive written read =>
      simp only [sessionStep] at h
      split at h
      · rename_i hmem
        split at h
        · obtain rfl := Option.some.inj h
          exact hs.received hmem _ rfl rfl rfl
        · obtain rfl := Option.some.inj h
          exact hs.fail hmem (by simp [Operation.code]) _
      · cases h
  | downloadEnd candidate archive written =>
      simp only [sessionStep] at h
      split at h
      · rename_i hmem
        split at h
        · rename_i hchecked
          obtain rfl := Option.some.inj h
          exact hs.downloaded hmem (check_archive_matches hchecked)
        · obtain rfl := Option.some.inj h
          exact hs.fail hmem (by simp [Operation.code]) _
      · cases h
  | downloadStop operation error =>
      simp only [sessionStep] at h
      split at h
      · rename_i hworking
        obtain rfl := Option.some.inj h
        exact hs.fail hworking.1 (by simp [hworking.2]) _
      · cases h
  | installCopy =>
      simp only [sessionStep] at h
      split at h
      · rename_i archive candidate hcopies
        obtain rfl := Option.some.inj h
        refine hs.enter (hs.gated.enter rfl) ?_
        obtain ⟨harchive, hcandidate⟩ := for_install_ok hcopies
        obtain ⟨current, hcurrent, hverified⟩ := hs.paired.archive archive harchive
        obtain rfl : candidate = current := Option.some.inj (hcandidate.symm.trans hcurrent)
        exact hverified
      · obtain rfl := Option.some.inj h
        exact hs
  | installBegin archive candidate =>
      simp only [sessionStep] at h
      split at h
      · rename_i hmem
        split at h
        · rename_i shared _ hbegin
          obtain rfl := Option.some.inj h
          obtain ⟨hopen, hstate, hcandidate, harchive⟩ := begin_ok hbegin
          have hidle : ∀ other ∈ s.operations.erase (.selected archive candidate),
              other.code = none :=
            fun other hother => hs.gated.all_idle hopen other (List.mem_of_mem_erase hother)
          have hleft := hs.finish hcandidate harchive (gated_of_idle hidle)
          refine hleft.enter (gated_enter hidle fun code hcode => ?_) ?_
          · obtain rfl := Option.some.inj hcode
            exact hstate
          · exact (keeps_of_removed rfl fun _ => .inl rfl).verified_for (hs.held _ hmem)
        · obtain rfl := Option.some.inj h
          exact hs.leave _
      · cases h
  | launch archive candidate result =>
      simp only [sessionStep] at h
      split at h
      · rename_i hmem
        split at h
        · obtain rfl := Option.some.inj h
          exact hs.launched hmem
        · obtain rfl := Option.some.inj h
          exact hs.fail hmem (by simp [Operation.code]) _
      · cases h
  | prune archive =>
      obtain rfl := Option.some.inj h
      exact hs.pruned archive

/-- A new updater has neither candidate nor archive. -/
theorem prepared_consistent (host : Host) (manifest : ApplicationManifest)
    (bundleRoot : Option String) :
    Consistent host (.prepared (prepare manifest bundleRoot).2) where
  gated := gated_of_idle fun _ hmem => absurd hmem List.not_mem_nil
  held _ hmem := absurd hmem List.not_mem_nil
  fresh _ _ := rfl
  paired := ⟨fun _ hsome => (nomatch hsome), fun _ _ hmem => absurd hmem List.not_mem_nil⟩

/-- However the calls on an updater interleave, an archive is only there with the candidate it was
verified against, and every helper gets the digest of the archive it gets, as long as every
download that passes the gate has a copy of the current candidate. -/
theorem archive_paired_with_candidate {tools : FeedTools} {manifest : ApplicationManifest}
    {bundleRoot : Option String} {events : List SessionEvent}
    (hcopies : (session host tools (prepare manifest bundleRoot).1).Throughout UpToDate
      (.prepared (prepare manifest bundleRoot).2) events) :
    (session host tools (prepare manifest bundleRoot).1).Always (Paired host)
      (.prepared (prepare manifest bundleRoot).2) events := by
  have hconsistent := hcopies.always (prepared_consistent host manifest bundleRoot)
    fun s event s' hs hcopy hnext => session_step_consistent hs hcopy hnext
  exact hconsistent.mono fun s hs => hs.paired

/-! ## The feed of Notes

Three releases after 1.0.0, each signed. The second was published with the archive of the first. -/

/-- The digest that the release of a version names. -/
def notesReleaseDigest (version : String) : String :=
  if version = "1.0.3" then "11c018fb705e6305642be609a27f66f181b6dd0b3d4c076b5b9e5c9fea1bea4e"
  else notesDigest

/-- The archive that the release of a version names. -/
def notesArtifact (version : String) : UpdateArtifact :=
  ⟨.linux, "x86_64", .portableArchive, "https://example.com/notes.tar.gz", 345,
    notesReleaseDigest version⟩

def notesRelease (version : String) : UpdateRelease where
  schemaVersion := 1
  applicationId := "com.example.notes"
  channel := "stable"
  version := version
  publishedAt := "2026-07-23T14:00:00Z"
  artifacts := [notesArtifact version]

/-- The release as it is signed. -/
def notesReleaseText (version : String) : String :=
  "\x7b\"schemaVersion\":1,\"applicationId\":\"com.example.notes\",\"channel\":\"stable\"," ++
    "\"version\":\"" ++ version ++ "\",\"publishedAt\":\"2026-07-23T14:00:00Z\"," ++
    "\"artifacts\":[\x7b\"platform\":1,\"architecture\":\"x86_64\",\"kind\":1," ++
    "\"url\":\"https://example.com/notes.tar.gz\",\"bytes\":345,\"sha256\":\"" ++
    notesReleaseDigest version ++ "\"\x7d]\x7d"

/-- The signature of the release under `notesPublicKey`. -/
def notesSignature (version : String) : String :=
  if version = "1.0.1" then
    "5db9c9a69eceb01a297cff3b0e11fcff741381fff17d147b8e792cf2a21ae8bd" ++
      "15550e778228e8e8d46c43551593d73541fd1cb495841dc2007075a510916a0e"
  else if version = "1.0.2" then
    "f860a39f88fca4ac5a34c378a7206e85bf9e6f69a1fdc909c1dc106404c72c7a" ++
      "0a1f135698cf510d4fdcf8558eb7bdc37160177b8cea6530f13cf2ea838e4007"
  else
    "4d59d46549179e038138dacec5d8ce27c7a6227b944d3096da28ed6bbbfad220" ++
      "82b9c018d4274ed735ec3197ab8a186cd7b4bf9a51fa318dd52d22f7ca706209"

/-- The feed with the release of a version. -/
def notesFeed (version : String) : List UInt8 :=
  osString ("\x7b\"release\":" ++ notesReleaseText version ++ ",\"signature\":\"" ++
    notesSignature version ++ "\"\x7d")

def notesVersions : List String := ["1.0.1", "1.0.2", "1.0.3"]

/-- JSON and Ed25519 on the feeds of Notes. -/
def notesTools : FeedTools where
  parseFeed bytes :=
    match notesVersions.find? fun version => bytes = notesFeed version with
    | some version => .ok ⟨notesRelease version, notesSignature version⟩
    | none => .error "expected value at line 1 column 1"
  encodeRelease release := .ok (osString (notesReleaseText release.version))
  validKey _ := true
  validSignature _ := true
  verifyStrict key payload signature :=
    notesVersions.any fun version => payload = osString (notesReleaseText version) ∧
      decodeHex 64 (notesSignature version) "" = .ok signature ∧
      decodeHex 32 notesPublicKey "" = .ok key

/-- What a check selects from the feed with this version. -/
def notesCandidate (version : String) : Candidate := ⟨notesArtifact version, version, none⟩

/-- The updater of Notes 1.0.0. -/
def notesUpdater : UpdaterInner × InternalState :=
  prepare (notesApplication "1.0.0") (some "/opt/notes")

/-- The events of a download of the first archive after the gate. -/
def notesDownload (candidate : Candidate) : List SessionEvent :=
  [.downloadBegin candidate, .downloadOpen candidate (some 345),
   .downloadRead candidate 0 [] (.ok notesArchive), .downloadEnd candidate 0 notesArchive]

/-- A check, a download and an installation, one after another. -/
def notesUpdate : List SessionEvent :=
  [.checkBegin, .checkEnd (.ok (notesFeed "1.0.1")), .downloadCopy] ++
    notesDownload (notesCandidate "1.0.1") ++
    [.installCopy, .installBegin 0 (notesCandidate "1.0.1"),
     .launch 0 (notesCandidate "1.0.1") (.ok ())]

/-- Between the copy of the download and its gate a check finds another release. -/
def notesOvertaken : List SessionEvent :=
  [.checkBegin, .checkEnd (.ok (notesFeed "1.0.1")), .downloadCopy,
   .checkBegin, .checkEnd (.ok (notesFeed "1.0.3"))] ++
    notesDownload (notesCandidate "1.0.1") ++
    [.installCopy, .installBegin 0 (notesCandidate "1.0.3"),
     .launch 0 (notesCandidate "1.0.3") (.ok ())]

/-- What the two lists of events evaluate to. -/
theorem notes_sessions_evaluated :
    ((session (notesHost .linux) notesTools notesUpdater.1).Throughout UpToDate
        (.prepared notesUpdater.2) notesUpdate ∧
      ((session (notesHost .linux) notesTools notesUpdater.1).play (.prepared notesUpdater.2)
        notesUpdate).any (fun s => s.launched = [(0, notesDigest)]) = true) ∧
    ((session (notesHost .linux) notesTools notesUpdater.1).play (.prepared notesUpdater.2)
        notesOvertaken).any (fun s => s.launched = [(0, notesReleaseDigest "1.0.3")] ∧
          s.verified 0 = some notesArchive) = true ∧
      (notesHost .linux).sha256 notesArchive ≠ notesReleaseDigest "1.0.3" := by
  decide +kernel

theorem notes_archive_paired :
    (session (notesHost .linux) notesTools notesUpdater.1).Always (Paired (notesHost .linux))
      (.prepared notesUpdater.2) notesUpdate ∧
    ((session (notesHost .linux) notesTools notesUpdater.1).play (.prepared notesUpdater.2)
      notesUpdate).any (fun s => s.launched = [(0, notesDigest)]) = true :=
  ⟨archive_paired_with_candidate notes_sessions_evaluated.1.1, notes_sessions_evaluated.1.2⟩

/-- The archive of 1.0.1 is then kept with 1.0.3, and the helper is launched with it and the digest
of 1.0.3. -/
theorem overtaken_download_mispaired :
    ¬ (session (notesHost .linux) notesTools notesUpdater.1).Always (Paired (notesHost .linux))
      (.prepared notesUpdater.2) notesOvertaken := by
  obtain ⟨hruns, hother⟩ := notes_sessions_evaluated.2
  obtain ⟨final, hplay, hfinal⟩ := (Option.any_eq_true _ _).mp hruns
  obtain ⟨hlaunched, hverified⟩ := of_decide_eq_true hfinal
  intro halways
  obtain ⟨artifact, ⟨bytes, hbytes, hmatches, -⟩, hdigest⟩ :=
    (halways.last hplay).launched 0 (notesReleaseDigest "1.0.3")
      (hlaunched ▸ List.mem_singleton_self _)
  obtain rfl : notesArchive = bytes := Option.some.inj (hverified.symm.trans hbytes)
  exact hother (hmatches.digest.trans hdigest.symm)

end PamDesktop.Updater
