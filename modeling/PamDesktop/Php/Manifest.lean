import PamDesktop.Php.Application
import PamDesktop.Php.Texts

/-!
# Manifests in PHP

`Lifecycle`, `Updates` and `Manifest` check their values where they are constructed, and every
method constructs a new object. An object therefore carries what its constructor has checked.
Strings are texts here: what PHP does with their bytes, it does with `osString`.
-/

namespace PamDesktop.Php

open Foundations Protocol

/-! ## Patterns -/

/-- `[0-9]`. -/
def digitByte (byte : UInt8) : Bool := 48 ≤ byte.toNat && byte.toNat ≤ 57

/-- `[a-z0-9-]`. -/
def dnsByte (byte : UInt8) : Bool := lowerLetter byte || digitByte byte || byte == 45

/-- `[a-z][a-z0-9-]*`. -/
def dnsLabel : Pattern := .seq (.byte lowerLetter) (.many (.byte dnsByte))

/-- `\.[a-z][a-z0-9-]*`. -/
def nextDnsLabel : Pattern := .seq (.byte (· == 46)) dnsLabel

/-- `/\A[a-z][a-z0-9-]*(?:\.[a-z][a-z0-9-]*)+\z/D`. -/
def reverseDnsPattern : Pattern :=
  .seq .start (.seq dnsLabel (.seq nextDnsLabel (.seq (.many nextDnsLabel) .ending)))

/-- `[A-Za-z0-9.+~-]`. -/
def versionByte (byte : UInt8) : Bool :=
  letter byte || digitByte byte || [46, 43, 126, 45].contains byte

/-- `/\A[0-9][A-Za-z0-9.+~-]{0,63}\z/D`. -/
def versionPattern : Pattern :=
  .seq .start (.seq (.byte digitByte) (.seq (Pattern.upTo 63 (.byte versionByte)) .ending))

/-- `[0-9a-f]`. -/
def lowerHexByte (byte : UInt8) : Bool :=
  digitByte byte || (97 ≤ byte.toNat && byte.toNat ≤ 102)

/-- `/\A[0-9a-f]{64}\z/D`. -/
def publicKeyPattern : Pattern :=
  .seq .start (.seq (Pattern.between 64 0 (.byte lowerHexByte)) .ending)

/-- `[a-z0-9+.-]`. -/
def schemeByte (byte : UInt8) : Bool :=
  lowerLetter byte || digitByte byte || [43, 46, 45].contains byte

/-- `/\A[a-z][a-z0-9+.-]{1,31}\z/D`. -/
def schemePattern : Pattern :=
  .seq .start (.seq (.byte lowerLetter) (.seq (Pattern.between 1 30 (.byte schemeByte)) .ending))

/-- `[a-z0-9]`. -/
def mimeStart (byte : UInt8) : Bool := lowerLetter byte || digitByte byte

/-- `[a-z0-9!#$&^_.+-]`. -/
def mimeByte (byte : UInt8) : Bool :=
  mimeStart byte || [33, 35, 36, 38, 94, 95, 46, 43, 45].contains byte

/-- `[a-z0-9][a-z0-9!#$&^_.+-]{0,63}/[a-z0-9][a-z0-9!#$&^_.+-]{0,63}`, anchored. -/
def mimePattern : Pattern :=
  .seq .start (.seq (.byte mimeStart) (.seq (Pattern.upTo 63 (.byte mimeByte))
    (.seq (.byte (· == 47)) (.seq (.byte mimeStart)
      (.seq (Pattern.upTo 63 (.byte mimeByte)) .ending)))))

/-- `[\\/]`. -/
def slashByte (byte : UInt8) : Bool := byte == 92 || byte == 47

/-- `/\A[A-Za-z]:[\\\/]/D`. -/
def drivePattern : Pattern :=
  .seq .start (.seq (.byte letter) (.seq (.byte (· == 58)) (.byte slashByte)))

/-- `~(^|[\\/])\.\.([\\/]|$)~`. -/
def parentPattern : Pattern :=
  .seq (.alt .start (.byte slashByte)) (.seq (.byte (· == 46)) (.seq (.byte (· == 46))
    (.alt (.byte slashByte) .finish)))

/-! ## Objects -/

/-- `new self(…)`: there is an object unless the constructor throws. -/
def construct {α : Type} (check : Except String Unit) (object : check = .ok () → α) :
    Except String α :=
  match check, object with
  | .ok (), object => .ok (object rfl)
  | .error message, _ => .error message

/-! ## Lifecycle -/

/-- The properties of `Lifecycle`. -/
structure LifecycleValues where
  urlSchemes : List String
  mimeTypes : List String
  autostartEnabled : Bool

/-- `Lifecycle::__construct`. `dedup` counts what `array_unique` counts. -/
def LifecycleValues.check (values : LifecycleValues) : Except String Unit :=
  if !values.urlSchemes.all fun scheme => schemePattern.pregMatch (osString scheme) then
    .error "URL schemes must be lowercase RFC 3986 schemes of 2 to 32 bytes."
  else if !values.mimeTypes.all fun mimeType => mimePattern.pregMatch (osString mimeType) then
    .error "MIME types must use a portable lowercase type/subtype form."
  else if values.urlSchemes.dedup.length ≠ values.urlSchemes.length ∨
      values.mimeTypes.dedup.length ≠ values.mimeTypes.length then
    .error "Lifecycle associations cannot be duplicated."
  else .ok ()

/-- `Lifecycle`. -/
structure Lifecycle extends LifecycleValues where
  checked : toLifecycleValues.check = .ok ()

namespace Lifecycle

def make (values : LifecycleValues) : Except String Lifecycle :=
  construct values.check fun checked => { values with checked }

/-- `Lifecycle::none`. -/
def none : Lifecycle where
  urlSchemes := []
  mimeTypes := []
  autostartEnabled := false
  checked := rfl

/-- The methods of `Lifecycle`. -/
inductive Call where
  | schemes (schemes : List String)
  | files (mimeTypes : List String)
  | autostart (enabled : Bool)

def call (lifecycle : Lifecycle) : Call → Except String Lifecycle
  | .schemes schemes =>
      make { lifecycle.toLifecycleValues with urlSchemes := lifecycle.urlSchemes ++ schemes }
  | .files mimeTypes =>
      make { lifecycle.toLifecycleValues with mimeTypes := lifecycle.mimeTypes ++ mimeTypes }
  | .autostart enabled =>
      make { lifecycle.toLifecycleValues with autostartEnabled := enabled }

/-- `Lifecycle::toArray`. -/
def toArray (lifecycle : Lifecycle) : PhpValue :=
  Serving.named [("urlSchemes", Serving.phpList (lifecycle.urlSchemes.map Serving.phpText)),
    ("mimeTypes", Serving.phpList (lifecycle.mimeTypes.map Serving.phpText)),
    ("autostart", .bool lifecycle.autostartEnabled)]

end Lifecycle

/-! ## Updates -/

/-- The parts that `parse_url` finds. -/
structure UrlParts where
  scheme : Option (List UInt8)
  host : Option (List UInt8)
  user : Option (List UInt8)
  pass : Option (List UInt8)
  fragment : Option (List UInt8)

/-- What PHP knows about URLs: `filter_var` with `FILTER_VALIDATE_URL`, for which only ASCII is
valid, and `parse_url`. -/
structure UrlFunctions where
  filterVar : List UInt8 → Bool
  parseUrl : List UInt8 → Option UrlParts
  only_ascii : ∀ value, filterVar value = true → ∀ byte ∈ value, byte.toNat < 128

section Objects

-- `build` is the machine, which PHP and the host share
variable (build : Build) (urls : UrlFunctions)

/-- `Updates::assertEndpoint`. -/
def assertEndpoint (endpoint : String) : Except String Unit :=
  let value := osString endpoint
  if 2048 < value.length || endpoint.toList.any (fun c => c.toNat ≤ 32 || c.toNat == 127) ||
      !urls.filterVar value then
    .error "The update endpoint must be a valid HTTPS URL."
  else
    match urls.parseUrl value with
    | Option.none =>
        .error "The update endpoint must use HTTPS and must not contain credentials."
    | some parts =>
        if (parts.scheme.getD []).map lowerByte ≠ osString "https" || parts.host.isNone ||
            parts.user.isSome || parts.pass.isSome || parts.fragment.isSome then
          .error "The update endpoint must use HTTPS and must not contain credentials."
        else .ok ()

/-- The properties of `Updates`. -/
structure UpdatesValues where
  endpoint : String
  channel : String
  publicKey : String
  policy : UpdatePolicy

/-- `Updates::__construct`. -/
def UpdatesValues.check (values : UpdatesValues) : Except String Unit := do
  assertEndpoint urls values.endpoint
  Identifier.assert (osString values.channel) "The update channel"
  if !publicKeyPattern.pregMatch (osString values.publicKey) then
    .error "The update public key must be a 32-byte lowercase hexadecimal Ed25519 key."

/-- `Updates`. -/
structure Updates extends UpdatesValues where
  checked : toUpdatesValues.check urls = .ok ()

namespace Updates

variable {urls}

def make (values : UpdatesValues) : Except String (Updates urls) :=
  construct (values.check urls) fun checked => { values with checked }

/-- `Updates::from`. -/
def «from» (endpoint publicKey : String) : Except String (Updates urls) :=
  make { endpoint, channel := "stable", publicKey, policy := .manual }

/-- The methods of `Updates`. -/
inductive Call where
  | channel (channel : String)
  | policy (policy : UpdatePolicy)

def call (updates : Updates urls) : Call → Except String (Updates urls)
  | .channel channel => make { updates.toUpdatesValues with channel }
  | .policy policy => make { updates.toUpdatesValues with policy }

/-- `Updates::toArray`. -/
def toArray (updates : Updates urls) : PhpValue :=
  Serving.named [("endpoint", Serving.phpText updates.endpoint),
    ("channel", Serving.phpText updates.channel),
    ("publicKey", Serving.phpText updates.publicKey),
    ("policy", .int (updates.policy.ctorIdx + 1))]

end Updates

/-! ## Manifests -/

/-- `Manifest::assertIdentifier`. -/
def assertApplicationIdentifier (identifier : String) : Except String Unit :=
  if 155 < (osString identifier).length || !reverseDnsPattern.pregMatch (osString identifier) then
    .error "The application identifier must be a lowercase reverse-DNS name of at most 155 bytes."
  else .ok ()

/-- `Manifest::assertVersion`. -/
def assertVersion (version : String) : Except String Unit :=
  if !versionPattern.pregMatch (osString version) then
    .error ("The application version must begin with a number and use at most 64 portable " ++
      "characters.")
  else .ok ()

/-- `Manifest::assertText`. The modifier `u` makes the class one of characters. -/
def assertText (value label : String) (maximumBytes : Nat) (allowEmpty : Bool) :
    Except String Unit :=
  if (!allowEmpty && trim (osString value) == []) || maximumBytes < (osString value).length ||
      value.toList.any (fun c => c.toNat ≤ 31 || c.toNat == 127) then
    .error (label ++ " must contain printable UTF-8 text of at most " ++ toString maximumBytes ++
      " bytes.")
  else .ok ()

/-- `Manifest::assertProjectPath`. -/
def assertProjectPath (path label : String) : Except String Unit :=
  if path == "" || path.toList.contains '\x00' || (osString path).head? == some 47 ||
      (osString path).head? == some 92 || drivePattern.pregMatch (osString path) ||
      parentPattern.pregMatch (osString path) then
    .error (label ++ " must be a relative project path.")
  else .ok ()

/-- `basename`. On Windows it also cuts off single bytes with a colon at the front of the name,
which changes no extension that is asked for. -/
def basename (path : List UInt8) : List UInt8 :=
  (path.rdropWhile build.separator).rtakeWhile (!build.separator ·)

/-- `pathinfo` with `PATHINFO_EXTENSION`. -/
def pathinfoExtension (path : List UInt8) : List UInt8 :=
  let name := basename build path
  if name.contains 46 then name.rtakeWhile (· ≠ 46) else []

/-- The loop over bundle exclusions; `unique` holds the paths already accepted. -/
def assertExcludes (unique : List String) : List String → Except String Unit
  | [] => .ok ()
  | path :: rest => do
      assertProjectPath path "A bundle exclusion"
      if unique.contains path then .error ("The bundle exclusion " ++ path ++ " is duplicated.")
      else if
          ["app.php", "composer.json", "composer.lock", "resources", "vendor"].contains path then
        .error ("The required project path " ++ path ++ " cannot be excluded.")
      else assertExcludes (path :: unique) rest

/-- The properties of `Manifest`. -/
structure ManifestValues where
  identifier : String
  name : String
  version : String
  description : String
  publisher : String
  category : ApplicationCategory
  icon : String
  bundleExcludes : List String
  updates : Option (Updates urls)
  lifecycle : Lifecycle

/-- `Manifest::__construct`. -/
def ManifestValues.check (values : ManifestValues urls) : Except String Unit := do
  assertApplicationIdentifier values.identifier
  assertText values.name "The application name" 80 false
  assertVersion values.version
  assertText values.description "The application description" 256 true
  assertText values.publisher "The application publisher" 128 false
  assertProjectPath values.icon "The application icon"
  if !([osString "png", osString "svg"].contains
      ((pathinfoExtension build (osString values.icon)).map lowerByte)) then
    .error "The application icon must be a PNG or SVG asset."
  assertExcludes [] values.bundleExcludes

/-- `Manifest`. -/
structure Manifest extends ManifestValues urls where
  checked : toManifestValues.check build = .ok ()

namespace Manifest

variable {build urls}

def make (values : ManifestValues urls) : Except String (Manifest build urls) :=
  construct (values.check build) fun checked => { values with checked }

/-- `Manifest::create`. -/
def create (identifier name version : String) : Except String (Manifest build urls) :=
  make { identifier, name, version, description := "", publisher := name, category := .utility,
         icon := "resources/icon.svg", bundleExcludes := [], updates := Option.none,
         lifecycle := Lifecycle.none }

/-- The methods of `Manifest`. -/
inductive Call (urls : UrlFunctions) where
  | description (description : String)
  | publisher (publisher : String)
  | category (category : ApplicationCategory)
  | icon (path : String)
  | excludeFromBundle (paths : List String)
  | updates (updates : Updates urls)
  | withoutUpdates
  | lifecycle (lifecycle : Lifecycle)

def call (manifest : Manifest build urls) : Call urls → Except String (Manifest build urls)
  | .description description => make { manifest.toManifestValues with description }
  | .publisher publisher => make { manifest.toManifestValues with publisher }
  | .category category => make { manifest.toManifestValues with category }
  | .icon path => make { manifest.toManifestValues with icon := path }
  | .excludeFromBundle paths =>
      make { manifest.toManifestValues with bundleExcludes := manifest.bundleExcludes ++ paths }
  | .updates updates => make { manifest.toManifestValues with updates := some updates }
  | .withoutUpdates => make { manifest.toManifestValues with updates := Option.none }
  | .lifecycle lifecycle => make { manifest.toManifestValues with lifecycle }

/-- `Manifest::toArray`. -/
def toArray (manifest : Manifest build urls) : PhpValue :=
  Serving.named [("identifier", Serving.phpText manifest.identifier),
    ("name", Serving.phpText manifest.name), ("version", Serving.phpText manifest.version),
    ("description", Serving.phpText manifest.description),
    ("publisher", Serving.phpText manifest.publisher),
    ("category", .int (manifest.category.ctorIdx + 1)),
    ("icon", Serving.phpText manifest.icon),
    ("bundleExcludes", Serving.phpList (manifest.bundleExcludes.map Serving.phpText)),
    ("updates", manifest.updates.elim .null Updates.toArray),
    ("lifecycle", manifest.lifecycle.toArray)]

end Manifest

end Objects

end PamDesktop.Php
