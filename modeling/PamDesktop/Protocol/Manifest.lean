import PamDesktop.Protocol.Validation

/-!
# Application manifests and update releases

`ApplicationManifest` is what a packaged bundle says about itself, `SignedUpdateRelease` what a
feed says about a new version. Each `validate` makes the checks of the source in its order and
reports the first that fails.
-/

namespace PamDesktop.Protocol

open Foundations

/-- `PROTOCOL_VERSION`. -/
def protocolVersion : Nat := 6

/-- `UPDATE_FEED_VERSION`. -/
def updateFeedVersion : Nat := 1

inductive ApplicationCategory where
  | development | productivity | graphics | audioVideo | network | utility | game | education
deriving DecidableEq

inductive UpdatePolicy where
  | manual | notify | automatic
deriving DecidableEq

inductive UpdatePlatform where
  | linux | windows | macos
deriving DecidableEq

inductive UpdateArtifactKind where
  | portableArchive | nativeInstaller
deriving DecidableEq

inductive UpdateState where
  | disabled | idle | checking | available | downloading | ready | applying | upToDate | failed
deriving DecidableEq

/-- `{:?}` of an update platform. -/
def UpdatePlatform.debug : UpdatePlatform → String
  | .linux => "Linux"
  | .windows => "Windows"
  | .macos => "MacOs"

/-- `{:?}` of an artifact kind. -/
def UpdateArtifactKind.debug : UpdateArtifactKind → String
  | .portableArchive => "PortableArchive"
  | .nativeInstaller => "NativeInstaller"

structure LifecycleConfig where
  urlSchemes : List String := []
  mimeTypes : List String := []
  autostart : Bool := false
deriving DecidableEq

structure UpdateConfig where
  endpoint : String
  channel : String
  publicKey : String
  policy : UpdatePolicy
deriving DecidableEq

structure ApplicationManifest where
  identifier : String
  name : String
  version : String
  description : String
  publisher : String
  category : ApplicationCategory
  icon : String
  bundleExcludes : List String := []
  updates : Option UpdateConfig := none
  lifecycle : LifecycleConfig := {}
deriving DecidableEq

structure UpdateArtifact where
  platform : UpdatePlatform
  architecture : String
  kind : UpdateArtifactKind
  url : String
  bytes : Nat
  sha256 : String
deriving DecidableEq

structure UpdateRelease where
  schemaVersion : Nat
  applicationId : String
  channel : String
  version : String
  publishedAt : String
  notesUrl : Option String := none
  artifacts : List UpdateArtifact
deriving DecidableEq

structure SignedUpdateRelease where
  release : UpdateRelease
  signature : String
deriving DecidableEq

/-- Whether a URL scheme is well formed. -/
def validUrlScheme (scheme : String) : Bool :=
  decide (2 ≤ scheme.utf8ByteSize ∧ scheme.utf8ByteSize ≤ 32) &&
    match scheme.toList with
    | [] => true
    | first :: rest => isAsciiLowercase first &&
        rest.all fun c => isAsciiLowercase c || isAsciiDigit c || ['+', '.', '-'].contains c

/-- Whether one side of a MIME type is well formed. -/
def validMimePart (part : List Char) : Bool :=
  part ≠ [] && decide ((String.ofList part).utf8ByteSize ≤ 64) &&
    part.all fun c => isAsciiLowercase c || isAsciiDigit c ||
      ['!', '#', '$', '&', '^', '_', '.', '+', '-'].contains c

/-- The loop over URL schemes; `seen` holds the schemes already accepted. -/
def validateSchemes (seen : List String) : List String → Except String Unit
  | [] => .ok ()
  | scheme :: rest =>
      if !validUrlScheme scheme || seen.contains scheme then
        .error ("application URL scheme " ++ debugText scheme ++ " is invalid or duplicated")
      else validateSchemes (scheme :: seen) rest

/-- The loop over MIME types; `seen` holds the types already accepted. -/
def validateMimeTypes (seen : List String) : List String → Except String Unit
  | [] => .ok ()
  | mime :: rest =>
      -- `split_once` cuts at the first slash
      let kind := mime.toList.takeWhile (· ≠ '/')
      match mime.toList.dropWhile (· ≠ '/') with
      | [] => .error ("application MIME type " ++ debugText mime ++ " is invalid")
      | _ :: subtype =>
          if !validMimePart kind || !validMimePart subtype || seen.contains mime then
            .error ("application MIME type " ++ debugText mime ++ " is invalid or duplicated")
          else validateMimeTypes (mime :: seen) rest

/-- `LifecycleConfig::validate`. -/
def LifecycleConfig.validate (config : LifecycleConfig) : Except String Unit := do
  validateSchemes [] config.urlSchemes
  validateMimeTypes [] config.mimeTypes

/-- `UpdateConfig::validate`. -/
def UpdateConfig.validate (build : Build) (config : UpdateConfig) : Except String Unit := do
  validateUpdateUrl build config.endpoint "update endpoint"
  validateIdentifier config.channel "update channel"
  validateLowerHex config.publicKey 64 "update public key"

/-- The loop over bundle exclusions; `seen` holds the paths already accepted. -/
def validateExcludes (build : Build) (seen : List String) : List String → Except String Unit
  | [] => .ok ()
  | path :: rest => do
      validateRelativeProjectPath build path "bundle exclusion"
      if seen.contains path then
        .error ("bundle exclusion " ++ debugText path ++ " is duplicated")
      else if ["app.php", "composer.json", "composer.lock", "resources", "vendor"].contains path then
        .error ("required desktop project path " ++ debugText path ++ " cannot be excluded")
      else validateExcludes build (path :: seen) rest

/-- The extension of a project path, in lower case: that of its last component. -/
def iconExtension (build : Build) (icon : String) : Option OsString :=
  ((projectComponents build icon).bind List.getLast?).bind fun name =>
    (extension name).map fun bytes =>
      bytes.map fun byte => if 65 ≤ byte && byte ≤ 90 then byte + 32 else byte

/-- `ApplicationManifest::validate`. -/
def ApplicationManifest.validate (build : Build) (manifest : ApplicationManifest) :
    Except String Unit := do
  validateApplicationIdentifier manifest.identifier
  validateText manifest.name "application name" 80 false
  validateVersion manifest.version
  validateText manifest.description "application description" 256 true
  validateText manifest.publisher "application publisher" 128 false
  validateRelativeProjectPath build manifest.icon "application icon"
  if !([some (osString "png"), some (osString "svg")].contains (iconExtension build manifest.icon))
  then .error "application icon must be a PNG or SVG project asset"
  validateExcludes build [] manifest.bundleExcludes
  match manifest.updates with
  | some updates => updates.validate build
  | none => .ok ()
  manifest.lifecycle.validate

/-- `UpdateArtifact::validate`. -/
def UpdateArtifact.validate (build : Build) (artifact : UpdateArtifact) : Except String Unit := do
  validateIdentifier artifact.architecture "update architecture"
  validateUpdateUrl build artifact.url "update artifact URL"
  if artifact.bytes = 0 then .error "update artifact size must be greater than zero"
  validateLowerHex artifact.sha256 64 "update artifact SHA-256"

/-- What makes two artifacts of a release compete for the same target. -/
def UpdateArtifact.target (artifact : UpdateArtifact) :
    UpdatePlatform × String × UpdateArtifactKind :=
  (artifact.platform, artifact.architecture, artifact.kind)

/-- The loop over the artifacts of a release; `seen` holds the targets already accepted. -/
def validateArtifacts (build : Build) (seen : List (UpdatePlatform × String × UpdateArtifactKind)) :
    List UpdateArtifact → Except String Unit
  | [] => .ok ()
  | artifact :: rest => do
      artifact.validate build
      if seen.contains artifact.target then
        .error ("update artifact target " ++ artifact.platform.debug ++ "/" ++
          artifact.architecture ++ " (" ++ artifact.kind.debug ++ ") is duplicated")
      else validateArtifacts build (artifact.target :: seen) rest

/-- `UpdateRelease::validate`. -/
def UpdateRelease.validate (build : Build) (release : UpdateRelease) : Except String Unit := do
  if release.schemaVersion ≠ updateFeedVersion then
    .error ("update feed schema " ++ toString release.schemaVersion ++
      " is unsupported; expected " ++ toString updateFeedVersion)
  validateApplicationIdentifier release.applicationId
  validateIdentifier release.channel "update channel"
  validateVersion release.version
  validateText release.publishedAt "update publication timestamp" 64 false
  match release.notesUrl with
  | some notesUrl => validateUpdateUrl build notesUrl "update notes URL"
  | none => .ok ()
  if release.artifacts = [] then
    .error "update release must contain at least one artifact"
  validateArtifacts build [] release.artifacts

/-- `SignedUpdateRelease::validate`. -/
def SignedUpdateRelease.validate (build : Build) (feed : SignedUpdateRelease) :
    Except String Unit := do
  feed.release.validate build
  validateLowerHex feed.signature 128 "update signature"

end PamDesktop.Protocol
