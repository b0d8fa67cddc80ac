import Mathlib.Data.List.Basic
import PamDesktop.Updater.Bundle

/-!
# Selecting and fetching a release

`check_inner` decides from a signed feed whether there is a release to install and which artifact
it is, and `download_inner` fetches that artifact. `FeedTools` collects the JSON and Ed25519 crates.
A version is never newer than itself, and what a download keeps has the length and the digest of
the candidate.
-/

namespace PamDesktop.Updater

open Foundations Protocol

/-- `UpdateError`. -/
structure UpdateError where
  code : ErrorCode
  message : String
deriving DecidableEq

/-- `Candidate`. -/
structure Candidate where
  artifact : UpdateArtifact
  version : String
  notesUrl : Option String
deriving DecidableEq

/-- The crates that read and verify a feed. `verifyStrict` takes key, payload and signature. -/
structure FeedTools where
  parseFeed : List UInt8 → Except String SignedUpdateRelease
  encodeRelease : UpdateRelease → Except String (List UInt8)
  validKey : List UInt8 → Bool
  validSignature : List UInt8 → Bool
  verifyStrict : List UInt8 → List UInt8 → List UInt8 → Bool

/-- An error of kind `UpdateIntegrityFailed`. -/
def integrityFailed {α : Type} (message : String) : Except UpdateError α :=
  .error ⟨.updateIntegrityFailed, message⟩

/-- An error of kind `UpdateUnavailable`. -/
def unavailable {α : Type} (message : String) : Except UpdateError α :=
  .error ⟨.updateUnavailable, message⟩

/-- `hex_nibble`. -/
def hexNibble (byte : UInt8) : Option UInt8 :=
  if 48 ≤ byte ∧ byte ≤ 57 then some (byte - 48)
  else if 97 ≤ byte ∧ byte ≤ 102 then some (byte - 97 + 10)
  else none

/-- The loop of `decode_hex` over pairs of bytes; `chunks_exact` leaves out an odd last byte. -/
def decodePairs (label : String) : List UInt8 → Except UpdateError (List UInt8)
  | first :: second :: rest =>
      match hexNibble first, hexNibble second with
      | some high, some low => do
          let decoded ← decodePairs label rest
          .ok ((high <<< 4 ||| low) :: decoded)
      | _, _ => integrityFailed ("The " ++ label ++ " is not lowercase hexadecimal.")
  | _ => .ok []

/-- `decode_hex`. -/
def decodeHex (bytes : Nat) (value label : String) : Except UpdateError (List UInt8) :=
  if value.utf8ByteSize ≠ bytes * 2 then
    integrityFailed ("The " ++ label ++ " has an invalid length.")
  else decodePairs label (osString value)

/-- `verify_signed_feed`. -/
def verifySignedFeed (build : Build) (tools : FeedTools) (feed : SignedUpdateRelease)
    (publicKey : String) : Except UpdateError Unit := do
  match feed.validate build with
  | .error error => integrityFailed ("The update feed contract is invalid: " ++ error)
  | .ok () => .ok ()
  let key ← decodeHex 32 publicKey "update public key"
  let signature ← decodeHex 64 feed.signature "update signature"
  if !tools.validKey key then
    integrityFailed "The configured Ed25519 update public key is invalid."
  if !tools.validSignature signature then
    integrityFailed "The update feed signature is invalid."
  match tools.encodeRelease feed.release with
  | .error error => integrityFailed ("Cannot canonicalize the signed release: " ++ error)
  | .ok payload =>
      if tools.verifyStrict key payload signature then .ok ()
      else integrityFailed "The update feed signature did not verify."

/-- `current_platform`. -/
def currentPlatform : OperatingSystem → Option UpdatePlatform
  | .linux => some .linux
  | .windows => some .windows
  | .macos => some .macos
  | .other _ => none

/-! ## Versions -/

/-- `str::parse::<u64>`. -/
def parseU64 (text : List Char) : Option Nat :=
  let digits : List Char := match text with
    | '+' :: rest => rest
    | _ => text
  let value : Nat := digits.foldl (fun value c => value * 10 + (c.toNat - 48)) 0
  if digits.isEmpty || !digits.all isAsciiDigit || decide (2 ^ 64 ≤ value) then none else some value

/-- The order of `str`: that of its bytes. -/
def compareText (left right : List Char) : Ordering :=
  compare (osString (String.ofList left)) (osString (String.ofList right))

/-- `compare_version_part`. -/
def compareVersionPart (left right : List Char) : Ordering :=
  match parseU64 left, parseU64 right with
  | some left, some right => compare left right
  | _, _ => compareText left right

/-- The loop over the numbered parts of two versions; a missing part is zero. -/
def compareCores (left right : List (List Char)) : List Nat → Ordering
  | [] => .eq
  | index :: rest =>
      match compareVersionPart (left.getD index ['0']) (right.getD index ['0']) with
      | .eq => compareCores left right rest
      | order => order

/-- The loop of `compare_prerelease`. -/
def comparePrereleaseParts (left right : List (List Char)) : List Nat → Ordering
  | [] => .eq
  | index :: rest =>
      match left[index]?, right[index]? with
      | some left', some right' =>
          let order := match parseU64 left', parseU64 right' with
            | some left, some right => compare left right
            | some _, none => .lt
            | none, some _ => .gt
            | none, none => compareText left' right'
          match order with
          | .eq => comparePrereleaseParts left right rest
          | order => order
      | some _, none => .gt
      | none, some _ => .lt
      | none, none => .eq

/-- `compare_prerelease`. -/
def comparePrerelease (left right : List Char) : Ordering :=
  let left := left.splitOn '.'
  let right := right.splitOn '.'
  comparePrereleaseParts left right (List.range (max left.length right.length))

/-- `split_once`. -/
def splitOnce (separator : Char) (text : List Char) : List Char × Option (List Char) :=
  match text.dropWhile (· ≠ separator) with
  | [] => (text, none)
  | _ :: rest => (text.takeWhile (· ≠ separator), some rest)

/-- `compare_versions`. -/
def compareVersions (left right : String) : Ordering :=
  let (leftCore, leftPre) := splitOnce '-' (splitOnce '+' left.toList).1
  let (rightCore, rightPre) := splitOnce '-' (splitOnce '+' right.toList).1
  let leftParts := leftCore.splitOn '.'
  let rightParts := rightCore.splitOn '.'
  match compareCores leftParts rightParts (List.range (max leftParts.length rightParts.length)) with
  | .eq =>
      match leftPre, rightPre with
      | none, some _ => .gt
      | some _, none => .lt
      | some left, some right => comparePrerelease left right
      | none, none => .eq
  | order => order

/-- `version_is_newer`. -/
def versionIsNewer (candidate current : String) : Bool := compareVersions candidate current == .gt

theorem compare_version_part_self (part : List Char) : compareVersionPart part part = .eq := by
  unfold compareVersionPart
  cases parseU64 part with
  | none => exact Std.compare_self
  | some value => exact Std.compare_self

theorem compare_cores_self (parts : List (List Char)) (indices : List Nat) :
    compareCores parts parts indices = .eq := by
  induction indices with
  | nil => rfl
  | cons index rest ih =>
      unfold compareCores
      rw [compare_version_part_self]
      exact ih

theorem compare_prerelease_parts_self (parts : List (List Char)) (indices : List Nat) :
    comparePrereleaseParts parts parts indices = .eq := by
  induction indices with
  | nil => rfl
  | cons index rest ih =>
      unfold comparePrereleaseParts
      cases parts[index]? with
      | none => rfl
      | some part =>
          cases hvalue : parseU64 part with
          | none => simp only [hvalue, compareText, Std.compare_self, ih]
          | some value => simp only [hvalue, Std.compare_self, ih]

/-- A version equals itself. -/
theorem compare_versions_self (version : String) : compareVersions version version = .eq := by
  unfold compareVersions
  simp only [compare_cores_self]
  cases (splitOnce '-' (splitOnce '+' version.toList).1).2 with
  | none => rfl
  | some prerelease => exact compare_prerelease_parts_self _ _

/-- No version is newer than itself. -/
theorem version_not_newer_than_itself (version : String) : versionIsNewer version version = false := by
  unfold versionIsNewer
  rw [compare_versions_self]
  rfl

example : versionIsNewer "1.0.0-rc.10" "1.0.0-rc.2" = true := by decide +kernel

/-! ## Selection -/

/-- The portable archive of a release for the platform and this build's architecture. -/
def selectArtifact (build : Build) (platform : UpdatePlatform) (release : UpdateRelease) :
    Option UpdateArtifact :=
  release.artifacts.find? fun artifact =>
    artifact.platform = platform ∧ artifact.architecture = build.architecture ∧
      artifact.kind = .portableArchive

/-- `check_inner`, on what was fetched from the endpoint. -/
def checkInner (build : Build) (tools : FeedTools) (applicationId currentVersion : String)
    (config : UpdateConfig) (fetched : Except UpdateError (List UInt8)) :
    Except UpdateError (Option Candidate) := do
  let bytes ← fetched
  match tools.parseFeed bytes with
  | .error error => integrityFailed ("The update feed is not valid JSON: " ++ error)
  | .ok feed =>
      verifySignedFeed build tools feed config.publicKey
      if feed.release.applicationId ≠ applicationId then
        integrityFailed "The signed release belongs to a different application."
      else if feed.release.channel ≠ config.channel then
        integrityFailed "The signed release belongs to a different update channel."
      else if !versionIsNewer feed.release.version currentVersion then .ok none
      else
        match currentPlatform build.operatingSystem with
        | none => unavailable "This operating system has no Pam Desktop update target."
        | some platform =>
            match selectArtifact build platform feed.release with
            | none => unavailable ("Release " ++ feed.release.version ++
                " has no portable artifact for " ++ build.operatingSystem.name ++ "/" ++
                build.architecture ++ ".")
            | some artifact => .ok (some ⟨artifact, feed.release.version, feed.release.notesUrl⟩)

/-- What a check selects is the release of the feed, which is newer than the current version, and
its artifact for this build. -/
theorem check_inner_selects {build : Build} {tools : FeedTools}
    {applicationId currentVersion : String} {config : UpdateConfig}
    {fetched : Except UpdateError (List UInt8)} {candidate : Candidate}
    (h : checkInner build tools applicationId currentVersion config fetched =
      .ok (some candidate)) :
    ∃ bytes feed, fetched = .ok bytes ∧ tools.parseFeed bytes = .ok feed ∧
      verifySignedFeed build tools feed config.publicKey = .ok () ∧
      feed.release.applicationId = applicationId ∧ feed.release.channel = config.channel ∧
      versionIsNewer feed.release.version currentVersion = true ∧
      candidate.version = feed.release.version ∧
      ∃ platform, currentPlatform build.operatingSystem = some platform ∧
        selectArtifact build platform feed.release = some candidate.artifact := by
  unfold checkInner at h
  obtain ⟨bytes, hbytes, h⟩ := except_bind_ok.mp h
  cases hfeed : tools.parseFeed bytes with
  | error error => simp [hfeed, integrityFailed] at h
  | ok feed =>
      simp only [hfeed] at h
      obtain ⟨⟨⟩, hverified, h⟩ := except_bind_ok.mp h
      split at h
      · cases h
      rename_i happlication
      split at h
      · cases h
      rename_i hchannel
      split at h
      · cases h
      rename_i hnewer
      split at h
      · cases h
      rename_i platform hplatform
      split at h
      · cases h
      rename_i artifact hfind
      obtain rfl := Option.some.inj (Except.ok.inj h)
      refine ⟨bytes, feed, hbytes, hfeed, hverified, not_not.mp happlication, not_not.mp hchannel,
        ?_, rfl, platform, hplatform, hfind⟩
      simpa using hnewer

/-! ## Download -/

/-- The answer to the request for an artifact: the `content-length` if there is one, and what the
reads return until the first that returns nothing. -/
structure Response where
  contentLength : Option Nat
  reads : List (Except String (List UInt8))

/-- The check of the announced length. -/
def checkAnnounced (artifact : UpdateArtifact) (response : Response) : Except UpdateError Unit :=
  match response.contentLength with
  | some length =>
      if length ≠ artifact.bytes then
        integrityFailed "The update server returned an unexpected artifact size."
      else .ok ()
  | none => .ok ()

/-- One turn of the loop of `download_inner`, on what was written before. -/
def receiveChunk (artifact : UpdateArtifact) (written : List UInt8) :
    Except String (List UInt8) → Except UpdateError (List UInt8)
  | .error error => unavailable ("The update download was interrupted: " ++ error)
  | .ok chunk =>
      if artifact.bytes < (written ++ chunk).length then
        integrityFailed "The downloaded update is larger than its signed size."
      else .ok (written ++ chunk)

/-- The loop of `download_inner`. -/
def receiveAll (artifact : UpdateArtifact) (written : List UInt8) :
    List (Except String (List UInt8)) → Except UpdateError (List UInt8)
  | [] => .ok written
  | read :: rest => do
      let written ← receiveChunk artifact written read
      receiveAll artifact written rest

/-- The comparison of the whole file with the candidate. -/
def checkArchive (host : Host) (artifact : UpdateArtifact) (written : List UInt8) :
    Except UpdateError Unit :=
  if written.length ≠ artifact.bytes ∨ host.sha256 written ≠ artifact.sha256 then
    integrityFailed "The downloaded update does not match its signed size and SHA-256 digest."
  else .ok ()

/-- `download_inner`, from the answer of the server on: the contents of the archive. -/
def downloadInner (host : Host) (candidate : Candidate) (response : Response) :
    Except UpdateError (List UInt8) := do
  checkAnnounced candidate.artifact response
  let written ← receiveAll candidate.artifact [] response.reads
  checkArchive host candidate.artifact written
  .ok written

/-- The file has the length and the digest of the artifact. -/
structure Matches (host : Host) (artifact : UpdateArtifact) (bytes : List UInt8) : Prop where
  length : bytes.length = artifact.bytes
  digest : host.sha256 bytes = artifact.sha256

theorem check_archive_matches {host : Host} {artifact : UpdateArtifact} {written : List UInt8}
    (h : checkArchive host artifact written = .ok ()) : Matches host artifact written := by
  unfold checkArchive at h
  split at h
  · cases h
  · rename_i hmatches
    rw [not_or, not_not, not_not] at hmatches
    exact ⟨hmatches.1, hmatches.2⟩

/-- What a download keeps matches its candidate. -/
theorem download_inner_matches {host : Host} {candidate : Candidate} {response : Response}
    {bytes : List UInt8} (h : downloadInner host candidate response = .ok bytes) :
    Matches host candidate.artifact bytes := by
  unfold downloadInner at h
  obtain ⟨⟨⟩, -, h⟩ := except_bind_ok.mp h
  obtain ⟨written, -, h⟩ := except_bind_ok.mp h
  obtain ⟨⟨⟩, hchecked, h⟩ := except_bind_ok.mp h
  obtain rfl := Except.ok.inj h
  exact check_archive_matches hchecked

end PamDesktop.Updater
