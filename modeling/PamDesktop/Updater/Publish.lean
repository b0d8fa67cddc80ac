import PamDesktop.Foundations.PathText
import PamDesktop.Protocol.Wire
import PamDesktop.Updater.Session

/-!
# Publishing a release

`publish_feed` signs the compact form of a release and writes the feed in its pretty form; the
updater parses the feed and verifies the compact form of what it parsed. `published_feed_accepted`
says that nothing is lost in between. `Ed25519` and `SerdeJson` collect the crates.
-/

namespace PamDesktop.Updater

open Foundations Protocol

/-! ## Hexadecimal text -/

/-- `DIGITS` of `encode_hex`. -/
def hexDigits : List Char :=
  ['0', '1', '2', '3', '4', '5', '6', '7', '8', '9', 'a', 'b', 'c', 'd', 'e', 'f']

/-- The two digits of a byte. -/
def hexPair (byte : UInt8) : List Char :=
  [hexDigits.getD (byte >>> 4).toNat '0', hexDigits.getD (byte &&& 0x0f).toNat '0']

/-- `encode_hex`. -/
def encodeHex (bytes : List UInt8) : String := String.ofList (bytes.flatMap hexPair)

/-- The digits of a byte, as the bytes that `decode_hex` reads. -/
def hexBytes (byte : UInt8) : UInt8 × UInt8 :=
  (UInt8.ofNat (hexDigits.getD (byte >>> 4).toNat '0').toNat,
    UInt8.ofNat (hexDigits.getD (byte &&& 0x0f).toNat '0').toNat)

/-- A digit reads back as the half that it was printed for. -/
theorem hex_digit : ∀ half < 16,
    hexNibble (UInt8.ofNat (hexDigits.getD half '0').toNat) = some (UInt8.ofNat half) ∧
      (isAsciiDigit (hexDigits.getD half '0') ||
        ('a' ≤ hexDigits.getD half '0' && hexDigits.getD half '0' ≤ 'f')) = true ∧
      (hexDigits.getD half '0').toNat < 128 := by
  decide

theorem high_half (byte : UInt8) : (byte >>> 4).toNat = byte.toNat / 16 := by
  rw [UInt8.toNat_shiftRight]
  exact Nat.shiftRight_eq_div_pow _ 4

theorem low_half (byte : UInt8) : (byte &&& 0x0f).toNat = byte.toNat % 16 := by
  rw [UInt8.toNat_and]
  exact Nat.and_two_pow_sub_one_eq_mod _ 4

/-- The halves of a byte make the byte. -/
theorem halves_of_byte (byte : UInt8) : (byte >>> 4) <<< 4 ||| byte &&& 0x0f = byte := by
  have hbyte := byte.toNat_lt
  apply UInt8.toNat_inj.mp
  rw [UInt8.toNat_or, UInt8.toNat_shiftLeft, high_half, low_half]
  show (byte.toNat / 16) <<< 4 % 256 ||| byte.toNat % 16 = byte.toNat
  have hlow : byte.toNat % 16 < 2 ^ 4 := Nat.mod_lt _ (by decide)
  have hor := Nat.shiftLeft_add_eq_or_of_lt hlow (byte.toNat / 16)
  rw [Nat.shiftLeft_eq] at hor ⊢
  rw [Nat.mod_eq_of_lt (by omega), ← hor]
  omega

/-- Each digit reads back as its half of the byte. -/
theorem hex_nibbles (byte : UInt8) : hexNibble (hexBytes byte).1 = some (byte >>> 4) ∧
    hexNibble (hexBytes byte).2 = some (byte &&& 0x0f) ∧
    (byte >>> 4) <<< 4 ||| byte &&& 0x0f = byte ∧
    ∀ c ∈ hexPair byte, (isAsciiDigit c || ('a' ≤ c && c ≤ 'f')) = true ∧ c.toNat < 128 := by
  have hbyte := byte.toNat_lt
  obtain ⟨hhigh, hhighDigit⟩ := hex_digit (byte >>> 4).toNat (by rw [high_half]; omega)
  obtain ⟨hlow, hlowDigit⟩ := hex_digit (byte &&& 0x0f).toNat (by rw [low_half]; omega)
  rw [UInt8.ofNat_toNat] at hhigh hlow
  refine ⟨hhigh, hlow, halves_of_byte byte, ?_⟩
  intro c hc
  obtain rfl | hc := List.mem_cons.mp hc
  · exact hhighDigit
  · obtain rfl := List.mem_singleton.mp hc
    exact hlowDigit

theorem hex_pair_bytes (byte : UInt8) :
    (hexPair byte).flatMap String.utf8EncodeChar = [(hexBytes byte).1, (hexBytes byte).2] := by
  obtain ⟨-, -, -, hascii⟩ := hex_nibbles byte
  have hfirst := (hascii _ List.mem_cons_self).2
  have hsecond := (hascii _ (List.mem_cons_of_mem _ List.mem_cons_self)).2
  rw [hexPair, List.flatMap_cons, List.flatMap_cons, utf8_encode_ascii hfirst,
    utf8_encode_ascii hsecond]
  rfl

theorem os_string_encode_hex (bytes : List UInt8) :
    osString (encodeHex bytes) =
      bytes.flatMap fun byte => [(hexBytes byte).1, (hexBytes byte).2] := by
  rw [encodeHex, os_string_of_list, List.flatMap_assoc]
  exact List.flatMap_congr fun byte _ => hex_pair_bytes byte

theorem encode_hex_length (bytes : List UInt8) :
    (encodeHex bytes).utf8ByteSize = bytes.length * 2 := by
  have hsize : (encodeHex bytes).utf8ByteSize = (osString (encodeHex bytes)).length := by
    simp [osString]
  rw [hsize, os_string_encode_hex, List.length_flatMap]
  simp

theorem decode_pairs_hex (label : String) (bytes : List UInt8) :
    decodePairs label (bytes.flatMap fun byte => [(hexBytes byte).1, (hexBytes byte).2]) =
      .ok bytes := by
  induction bytes with
  | nil => rfl
  | cons byte rest ih =>
      obtain ⟨hhigh, hlow, hbyte, -⟩ := hex_nibbles byte
      rw [List.flatMap_cons, List.cons_append, List.singleton_append, decodePairs, hhigh, hlow]
      simp only [ih, hbyte]
      rfl

/-- `decode_hex` undoes `encode_hex`. -/
theorem decode_encode_hex (label : String) (bytes : List UInt8) :
    decodeHex bytes.length (encodeHex bytes) label = .ok bytes := by
  rw [decodeHex, encode_hex_length, os_string_encode_hex, decode_pairs_hex]
  simp

/-- What `encode_hex` writes is lowercase hexadecimal text. -/
theorem encode_hex_valid (label : String) (bytes : List UInt8) :
    validateLowerHex (encodeHex bytes) (bytes.length * 2) label = .ok () := by
  have hall : (encodeHex bytes).toList.all
      (fun c => isAsciiDigit c || ('a' ≤ c && c ≤ 'f')) = true := by
    rw [encodeHex, String.toList_ofList, List.all_eq_true]
    intro c hmem
    obtain ⟨byte, -, hpair⟩ := List.mem_flatMap.mp hmem
    exact ((hex_nibbles byte).2.2.2 c hpair).1
  unfold validateLowerHex
  rw [encode_hex_length, hall]
  simp

/-! ## The JSON of a feed -/

def UpdatePlatform.codec : Codec UpdatePlatform :=
  .variant [.linux, .windows, .macos] fun a => by cases a <;> decide

def UpdateArtifactKind.codec : Codec UpdateArtifactKind :=
  .variant [.portableArchive, .nativeInstaller] fun a => by cases a <;> decide

def UpdateArtifact.codec : Codec UpdateArtifact :=
  Record.start UpdateArtifact UpdateArtifact.mk
    |>.required "platform" (·.platform) UpdatePlatform.codec
    |>.required "architecture" (·.architecture) .text
    |>.required "kind" (·.kind) UpdateArtifactKind.codec
    |>.required "url" (·.url) .text
    |>.required "bytes" (·.bytes) (.unsigned 64)
    |>.required "sha256" (·.sha256) .text
    |>.codec true

def UpdateRelease.codec : Codec UpdateRelease :=
  Record.start UpdateRelease UpdateRelease.mk
    |>.required "schemaVersion" (·.schemaVersion) (.unsigned 16)
    |>.required "applicationId" (·.applicationId) .text
    |>.required "channel" (·.channel) .text
    |>.required "version" (·.version) .text
    |>.required "publishedAt" (·.publishedAt) .text
    |>.optional "notesUrl" (·.notesUrl) .text Codec.text_ne_null
    |>.required "artifacts" (·.artifacts) (.list UpdateArtifact.codec)
    |>.codec true

def SignedUpdateRelease.codec : Codec SignedUpdateRelease :=
  Record.start SignedUpdateRelease SignedUpdateRelease.mk
    |>.required "release" (·.release) UpdateRelease.codec
    |>.required "signature" (·.signature) .text
    |>.codec true

/-- What `serde_json` reads, and its message for what it does not read. -/
structure SerdeJson where
  parse : List UInt8 → Option Json
  message : List UInt8 → String

/-- The Ed25519 crate. A signing key is its seed. -/
structure Ed25519 where
  verifyingKey : List UInt8 → List UInt8
  sign : List UInt8 → List UInt8 → List UInt8
  validKey : List UInt8 → Bool
  validSignature : List UInt8 → Bool
  verifyStrict : List UInt8 → List UInt8 → List UInt8 → Bool

/-- The crates as the updater uses them. -/
def feedTools (serde : SerdeJson) (ed : Ed25519) : FeedTools where
  parseFeed bytes :=
    match SignedUpdateRelease.codec.fromSlice serde.parse bytes with
    | some feed => .ok feed
    | none => .error (serde.message bytes)
  encodeRelease release := .ok (UpdateRelease.codec.toVec release)
  validKey := ed.validKey
  validSignature := ed.validSignature
  verifyStrict := ed.verifyStrict

/-! ## Publication -/

/-- What the file of a private key is found to be. -/
structure KeyFile where
  isFile : Bool
  mode : Nat
  contents : Except String String

/-- `PublishArtifact`. -/
structure PublishArtifact where
  platform : UpdatePlatform
  architecture : String
  kind : UpdateArtifactKind
  path : String
  url : String

/-- `PublishOptions`. -/
structure PublishOptions where
  privateKey : String
  output : String
  channel : String
  publishedAt : String
  notesUrl : Option String
  artifacts : List PublishArtifact
  force : Bool

/-- The file system of the publisher. -/
structure Publisher where
  metadata : String → Except String KeyFile
  canonicalize : String → Except String String
  isFile : String → Bool
  fileSizeAndHash : String → Except String (UInt64 × String)
  atomicWrite : String → List UInt8 → Bool → Except String Unit

/-- `str::trim`. -/
def trim (text : String) : String :=
  String.ofList ((text.toList.dropWhile isWhitespace).reverse.dropWhile isWhitespace).reverse

/-- `read_signing_key`: the seed. -/
def readSigningKey (build : Build) (publisher : Publisher) (path : String) :
    Except String (List UInt8) := do
  let file ← (publisher.metadata path).mapError
    ("cannot inspect update private key " ++ path ++ ": " ++ ·)
  refuseIf (!file.isFile) ("update private key is not a file: " ++ path)
  refuseIf (build.operatingSystem != .windows && file.mode &&& 0o077 != 0)
    "update private key permissions are too broad; use owner-only mode 0600"
  let source ← file.contents.mapError ("cannot read update private key: " ++ ·)
  (decodeHex 32 (trim source) "update private key").mapError (·.message)

/-- The loop of `publish_feed` over the artifacts. -/
def describeArtifacts (publisher : Publisher) :
    List PublishArtifact → Except String (List UpdateArtifact)
  | [] => .ok []
  | input :: rest => do
      let path ← (publisher.canonicalize input.path).mapError
        ("cannot resolve artifact " ++ input.path ++ ": " ++ ·)
      refuseIf (!publisher.isFile path) ("update artifact is not a file: " ++ path)
      let (bytes, sha256) ← publisher.fileSizeAndHash path
      let artifacts ← describeArtifacts publisher rest
      .ok (⟨input.platform, input.architecture, input.kind, input.url, bytes.toNat, sha256⟩ ::
        artifacts)

/-- The release that `publish_feed` describes. -/
def describeRelease (publisher : Publisher) (manifest : ApplicationManifest)
    (options : PublishOptions) : Except String UpdateRelease := do
  let artifacts ← describeArtifacts publisher options.artifacts
  .ok
    { schemaVersion := updateFeedVersion
      applicationId := manifest.identifier
      channel := options.channel
      version := manifest.version
      publishedAt := options.publishedAt
      notesUrl := options.notesUrl
      artifacts := artifacts }

/-- The signed release. -/
def signRelease (ed : Ed25519) (seed : List UInt8) (release : UpdateRelease) :
    SignedUpdateRelease :=
  ⟨release, encodeHex (ed.sign seed (UpdateRelease.codec.toVec release))⟩

/-- The bytes of a feed: its pretty form and a newline. -/
def feedBytes (feed : SignedUpdateRelease) : List UInt8 :=
  textBytes ((SignedUpdateRelease.codec.encode feed).pretty escapeChar []) ++ [10]

/-- `publish_feed`: the bytes that it leaves at the output. -/
def publishFeed (build : Build) (ed : Ed25519) (publisher : Publisher)
    (manifest : ApplicationManifest) (options : PublishOptions) : Except String (List UInt8) := do
  let seed ← readSigningKey build publisher options.privateKey
  refuseIf (manifest.updates.any (·.publicKey != encodeHex (ed.verifyingKey seed)))
    "the update signing key does not match the public key configured in the application"
  let release ← describeRelease publisher manifest options
  release.validate build
  let encoded := feedBytes (signRelease ed seed release)
  publisher.atomicWrite options.output encoded options.force
  .ok encoded

/-- `MAX_FEED_BYTES`. -/
def maxFeedBytes : Nat := 1024 * 1024

/-- `fetch_small`, on the answer of the server: `readToVec` reads a body up to a limit. -/
def fetchSmall (readToVec : Nat → List UInt8 → Except String (List UInt8))
    (call : Except String (List UInt8)) (limit : Nat) : Except UpdateError (List UInt8) :=
  match call with
  | .error error => unavailable ("Cannot fetch the update feed: " ++ error)
  | .ok body =>
      match readToVec limit body with
      | .error error => integrityFailed ("Cannot read the bounded update feed: " ++ error)
      | .ok bytes => .ok bytes

/-- What `check_inner` decides about a release that it accepts. -/
def decideRelease (build : Build) (currentVersion : String) (release : UpdateRelease) :
    Except UpdateError (Option Candidate) :=
  if !versionIsNewer release.version currentVersion then .ok none
  else
    match currentPlatform build.operatingSystem with
    | none => unavailable "This operating system has no Pam Desktop update target."
    | some platform =>
        match selectArtifact build platform release with
        | none => unavailable ("Release " ++ release.version ++
            " has no portable artifact for " ++ build.operatingSystem.name ++ "/" ++
            build.architecture ++ ".")
        | some artifact => .ok (some ⟨artifact, release.version, release.notesUrl⟩)

/-! ## Acceptance -/

/-- A key that signs what it verifies. -/
structure Ed25519.Verifies (ed : Ed25519) (seed payload : List UInt8) : Prop where
  key_length : (ed.verifyingKey seed).length = 32
  signature_length : (ed.sign seed payload).length = 64
  key : ed.validKey (ed.verifyingKey seed) = true
  signature : ed.validSignature (ed.sign seed payload) = true
  verified : ed.verifyStrict (ed.verifyingKey seed) payload (ed.sign seed payload) = true

/-- Ed25519 verifies what it signed. -/
def Ed25519.Sound (ed : Ed25519) : Prop :=
  ∀ seed payload : List UInt8, seed.length = 32 → ed.Verifies seed payload

theorem decode_pairs_length {label : String} : ∀ {digits bytes : List UInt8},
    decodePairs label digits = .ok bytes → bytes.length = digits.length / 2
  | [], _, h => by
      obtain rfl := Except.ok.inj h
      rfl
  | [only], _, h => by
      obtain rfl := Except.ok.inj h
      show 0 = 1 / 2
      omega
  | first :: second :: rest, bytes, h => by
      rw [decodePairs] at h
      split at h
      · obtain ⟨decoded, hdecoded, h⟩ := except_bind_ok.mp h
        obtain rfl := Except.ok.inj h
        have := decode_pairs_length hdecoded
        simp only [List.length_cons]
        omega
      · cases h

/-- A seed has 32 bytes. -/
theorem decode_hex_length {count : Nat} {value label : String} {bytes : List UInt8}
    (h : decodeHex count value label = .ok bytes) : bytes.length = count := by
  unfold decodeHex at h
  split at h
  · cases h
  · rename_i hsize
    have hlength := decode_pairs_length h
    have hbytes : (osString value).length = value.utf8ByteSize := by simp [osString]
    omega

theorem map_error_ok {ε ε' α : Type} {f : ε → ε'} {result : Except ε α} {value : α}
    (h : result.mapError f = .ok value) : result = .ok value := by
  cases result with
  | ok found => exact congrArg Except.ok (Except.ok.inj h)
  | error error => cases h

theorem read_signing_key_length {build : Build} {publisher : Publisher} {path : String}
    {seed : List UInt8} (h : readSigningKey build publisher path = .ok seed) :
    seed.length = 32 := by
  unfold readSigningKey at h
  obtain ⟨file, -, h⟩ := except_bind_ok.mp h
  obtain ⟨⟨⟩, -, h⟩ := except_bind_ok.mp h
  obtain ⟨⟨⟩, -, h⟩ := except_bind_ok.mp h
  obtain ⟨source, -, h⟩ := except_bind_ok.mp h
  exact decode_hex_length (map_error_ok h)

/-- The size of a file fits its type. -/
theorem describe_artifacts_sizes {publisher : Publisher} {inputs : List PublishArtifact}
    {artifacts : List UpdateArtifact} (h : describeArtifacts publisher inputs = .ok artifacts) :
    ∀ artifact ∈ artifacts, artifact.bytes < 2 ^ 64 := by
  induction inputs generalizing artifacts with
  | nil =>
      obtain rfl := Except.ok.inj h
      exact fun _ hmem => absurd hmem List.not_mem_nil
  | cons input rest ih =>
      rw [describeArtifacts] at h
      obtain ⟨path, -, h⟩ := except_bind_ok.mp h
      obtain ⟨⟨⟩, -, h⟩ := except_bind_ok.mp h
      obtain ⟨⟨bytes, sha256⟩, -, h⟩ := except_bind_ok.mp h
      obtain ⟨others, hothers, h⟩ := except_bind_ok.mp h
      obtain rfl := Except.ok.inj h
      intro artifact hmem
      obtain rfl | hmem := List.mem_cons.mp hmem
      · exact bytes.toNat_lt
      · exact ih hothers artifact hmem

theorem sign_release_valid {ed : Ed25519} {seed : List UInt8} {publisher : Publisher}
    {manifest : ApplicationManifest} {options : PublishOptions} {release : UpdateRelease}
    (h : describeRelease publisher manifest options = .ok release) :
    SignedUpdateRelease.codec.Valid (signRelease ed seed release) := by
  obtain ⟨artifacts, hartifacts, h⟩ := except_bind_ok.mp h
  obtain rfl := Except.ok.inj h
  have hsizes := describe_artifacts_sizes hartifacts
  simpa [SignedUpdateRelease.codec, UpdateRelease.codec, UpdateArtifact.codec,
    UpdatePlatform.codec, UpdateArtifactKind.codec, signRelease, updateFeedVersion] using hsizes

/-- What is published is the feed of the signed release. -/
theorem publish_feed_bytes {build : Build} {ed : Ed25519} {publisher : Publisher}
    {manifest : ApplicationManifest} {options : PublishOptions} {seed published : List UInt8}
    {release : UpdateRelease}
    (hseed : readSigningKey build publisher options.privateKey = .ok seed)
    (hrelease : describeRelease publisher manifest options = .ok release)
    (h : publishFeed build ed publisher manifest options = .ok published) :
    published = feedBytes (signRelease ed seed release) := by
  unfold publishFeed at h
  rw [hseed, hrelease] at h
  obtain ⟨_, hseed', h⟩ := except_bind_ok.mp h
  obtain rfl := Except.ok.inj hseed'
  obtain ⟨⟨⟩, -, h⟩ := except_bind_ok.mp h
  obtain ⟨_, hrelease', h⟩ := except_bind_ok.mp h
  obtain rfl := Except.ok.inj hrelease'
  obtain ⟨⟨⟩, -, h⟩ := except_bind_ok.mp h
  obtain ⟨⟨⟩, -, h⟩ := except_bind_ok.mp h
  exact (Except.ok.inj h).symm

/-- What makes a publication succeed. -/
theorem publish_feed_ok {build : Build} {ed : Ed25519} {publisher : Publisher}
    {manifest : ApplicationManifest} {options : PublishOptions} {seed : List UInt8}
    {release : UpdateRelease}
    (hseed : readSigningKey build publisher options.privateKey = .ok seed)
    (hkey : manifest.updates.any (·.publicKey != encodeHex (ed.verifyingKey seed)) = false)
    (hrelease : describeRelease publisher manifest options = .ok release)
    (hvalid : release.validate build = .ok ())
    (hwrite : publisher.atomicWrite options.output (feedBytes (signRelease ed seed release))
      options.force = .ok ()) :
    publishFeed build ed publisher manifest options =
      .ok (feedBytes (signRelease ed seed release)) := by
  unfold publishFeed
  simp only [hseed, hkey, refuseIf, hrelease, hvalid, hwrite, bind, Except.bind]
  rfl

/-- A feed signed with the configured key is verified. -/
theorem signed_release_verified {build : Build} {ed : Ed25519} {serde : SerdeJson}
    {seed : List UInt8} {release : UpdateRelease} (hvalid : release.validate build = .ok ())
    (hverifies : ed.Verifies seed (UpdateRelease.codec.toVec release)) :
    verifySignedFeed build (feedTools serde ed) (signRelease ed seed release)
      (encodeHex (ed.verifyingKey seed)) = .ok () := by
  obtain ⟨hkey, hsignature, hvalidKey, hvalidSignature, hverified⟩ := hverifies
  have hfeed : (signRelease ed seed release).validate build = .ok () := by
    unfold SignedUpdateRelease.validate
    have hhex := encode_hex_valid "update signature"
      (ed.sign seed (UpdateRelease.codec.toVec release))
    rw [hsignature] at hhex
    show (release.validate build >>= fun _ => _) = _
    rw [hvalid]
    exact hhex
  have hkeyHex := decode_encode_hex "update public key" (ed.verifyingKey seed)
  have hsignatureHex := decode_encode_hex "update signature"
    (ed.sign seed (UpdateRelease.codec.toVec release))
  rw [hkey] at hkeyHex
  rw [hsignature] at hsignatureHex
  have hsigned : decodeHex 64 (signRelease ed seed release).signature "update signature" =
      .ok (ed.sign seed (UpdateRelease.codec.toVec release)) := hsignatureHex
  unfold verifySignedFeed
  simp only [hfeed, hkeyHex, hsigned, feedTools, bind, Except.bind, hvalidKey, hvalidSignature]
  show (if ed.verifyStrict _ (UpdateRelease.codec.toVec release) _ = true then _ else _) = _
  rw [if_pos hverified]

/-- `decode_hex` undoes `encode_hex`. A valid release that was published with a key is parsed from
the published bytes, verified under the public key and checked as the release it is. -/
theorem published_feed_accepted (publisherBuild build : Build) (ed : Ed25519) (serde : SerdeJson)
    (readToVec : Nat → List UInt8 → Except String (List UInt8)) (publisher : Publisher)
    (manifest : ApplicationManifest) (options : PublishOptions) (config : UpdateConfig)
    (applicationId currentVersion : String) {seed published : List UInt8} {release : UpdateRelease}
    (hseed : readSigningKey publisherBuild publisher options.privateKey = .ok seed)
    (hrelease : describeRelease publisher manifest options = .ok release)
    (hvalid : release.validate build = .ok ())
    (hpublish : publishFeed publisherBuild ed publisher manifest options = .ok published)
    (hlimit : published.length ≤ maxFeedBytes)
    (hkey : config.publicKey = encodeHex (ed.verifyingKey seed))
    (happlication : release.applicationId = applicationId)
    (hchannel : release.channel = config.channel) (hsound : ed.Sound)
    (hparse : Parses serde.parse (feedBytes (signRelease ed seed release))
      (SignedUpdateRelease.codec.encode (signRelease ed seed release)))
    (hread : published.length ≤ maxFeedBytes → readToVec maxFeedBytes published = .ok published) :
    (∀ (label : String) (bytes : List UInt8),
      decodeHex bytes.length (encodeHex bytes) label = .ok bytes) ∧
    ∃ feed, (feedTools serde ed).parseFeed published = .ok feed ∧ feed.release = release ∧
      verifySignedFeed build (feedTools serde ed) feed config.publicKey = .ok () ∧
      checkInner build (feedTools serde ed) applicationId currentVersion config
        (fetchSmall readToVec (.ok published) maxFeedBytes) =
          decideRelease build currentVersion release := by
  refine ⟨decode_encode_hex, signRelease ed seed release, ?_⟩
  have hbytes := publish_feed_bytes hseed hrelease hpublish
  have hfeed : (feedTools serde ed).parseFeed published = .ok (signRelease ed seed release) := by
    have hparsed := SignedUpdateRelease.codec.from_slice (sign_release_valid hrelease) (by decide)
      hparse
    rw [hbytes]
    simp only [feedTools, hparsed]
  have hverified : verifySignedFeed build (feedTools serde ed) (signRelease ed seed release)
      config.publicKey = .ok () := by
    rw [hkey]
    exact signed_release_verified hvalid (hsound seed _ (read_signing_key_length hseed))
  refine ⟨hfeed, rfl, hverified, ?_⟩
  unfold checkInner
  simp only [fetchSmall, hread hlimit, hfeed, hverified, bind, Except.bind]
  have happlication' : (signRelease ed seed release).release.applicationId = applicationId :=
    happlication
  have hchannel' : (signRelease ed seed release).release.channel = config.channel := hchannel
  rw [if_neg (not_not.mpr happlication'), if_neg (not_not.mpr hchannel')]
  rfl

/-! ## Publishing Notes -/

/-- The private key of Notes. -/
def notesSeed : String := "4ccd089b28ff96da9db6c346ec114e0f5b8a319f35aba624da8cf6ed4fb8a6fb"

/-- The bytes of a hexadecimal text. -/
def hexContent (count : Nat) (value : String) : List UInt8 :=
  match decodeHex count value "" with
  | .ok bytes => bytes
  | .error _ => []

/-- Ed25519 under the key of Notes, on the release 1.0.1. -/
def notesEd25519 : Ed25519 where
  verifyingKey _ := hexContent 32 notesPublicKey
  sign _ payload :=
    if payload = osString (notesReleaseText "1.0.1") then hexContent 64 (notesSignature "1.0.1")
    else List.replicate 64 0
  validKey _ := true
  validSignature _ := true
  verifyStrict key payload signature :=
    key = hexContent 32 notesPublicKey ∧ signature =
      if payload = osString (notesReleaseText "1.0.1") then hexContent 64 (notesSignature "1.0.1")
      else List.replicate 64 0

theorem notes_ed25519_sound : notesEd25519.Sound := by
  intro seed payload _
  have hkey : (hexContent 32 notesPublicKey).length = 32 := by decide +kernel
  refine ⟨hkey, ?_, rfl, rfl, decide_eq_true ⟨rfl, rfl⟩⟩
  show List.length (if payload = osString (notesReleaseText "1.0.1") then _ else _) = 64
  split
  · decide +kernel
  · exact List.length_replicate

/-- The disk of the publisher: the private key and the archive of 1.0.1. -/
def notesPublisher : Publisher where
  metadata _ := .ok ⟨true, 0o600, .ok (notesSeed ++ "\n")⟩
  canonicalize path := .ok path
  isFile _ := true
  fileSizeAndHash _ := .ok (345, notesDigest)
  atomicWrite _ _ _ := .ok ()

/-- The command that publishes 1.0.1. -/
def notesPublishOptions : PublishOptions where
  privateKey := "notes.key"
  output := "feed.json"
  channel := "stable"
  publishedAt := "2026-07-23T14:00:00Z"
  notesUrl := none
  artifacts :=
    [⟨.linux, "x86_64", .portableArchive, "notes.tar.gz", "https://example.com/notes.tar.gz"⟩]
  force := false

/-- The feed of 1.0.1. -/
def notesSigned : SignedUpdateRelease :=
  signRelease notesEd25519 (hexContent 32 notesSeed) (notesRelease "1.0.1")

/-- `serde_json` on the feed of 1.0.1. -/
def notesSerde : SerdeJson where
  parse := parserOf (feedBytes notesSigned) (SignedUpdateRelease.codec.encode notesSigned)
  message _ := "expected value at line 1 column 1"

/-- The steps of the publication of 1.0.1. -/
theorem notes_publication_evaluated :
    readSigningKey (notesHost .linux).toBuild notesPublisher "notes.key" =
        .ok (hexContent 32 notesSeed) ∧
      (notesRelease "1.0.1").validate (notesHost .linux).toBuild = .ok () ∧
      notesPublicKey = encodeHex (notesEd25519.verifyingKey (hexContent 32 notesSeed)) ∧
      notesSigned.signature = notesSignature "1.0.1" ∧
      (feedBytes ⟨notesRelease "1.0.1", notesSignature "1.0.1"⟩).length ≤ maxFeedBytes := by
  decide +kernel

/-- The feed of 1.0.1 as an updater of 1.0.0 gets it. -/
theorem notes_feed_accepted :
    checkInner (notesHost .linux).toBuild (feedTools notesSerde notesEd25519) "com.example.notes"
        "1.0.0" ⟨"https://example.com/notes.json", "stable", notesPublicKey, .automatic⟩
        (fetchSmall (fun _ => .ok) (.ok (feedBytes notesSigned)) maxFeedBytes) =
      decideRelease (notesHost .linux).toBuild "1.0.0" (notesRelease "1.0.1") := by
  obtain ⟨hseed, hvalid, hkey, hsignature, hlimit⟩ := notes_publication_evaluated
  have hsigned : notesSigned = ⟨notesRelease "1.0.1", notesSignature "1.0.1"⟩ := by
    rw [← hsignature]
    rfl
  rw [← hsigned] at hlimit
  have hrelease : describeRelease notesPublisher (notesApplication "1.0.1") notesPublishOptions =
      .ok (notesRelease "1.0.1") := rfl
  have hmatches : (notesApplication "1.0.1").updates.any
      (·.publicKey != encodeHex (notesEd25519.verifyingKey (hexContent 32 notesSeed))) = false := by
    show (notesPublicKey != _) = false
    rw [← hkey, bne_self_eq_false]
  have hpublish : publishFeed (notesHost .linux).toBuild notesEd25519 notesPublisher
      (notesApplication "1.0.1") notesPublishOptions = .ok (feedBytes notesSigned) :=
    publish_feed_ok hseed hmatches hrelease hvalid rfl
  have hparse : Parses notesSerde.parse (feedBytes notesSigned)
      (SignedUpdateRelease.codec.encode notesSigned) := parses_known _ _
  obtain ⟨-, feed, -, -, -, hchecked⟩ := published_feed_accepted (notesHost .linux).toBuild
    (notesHost .linux).toBuild notesEd25519 notesSerde (fun _ => .ok) notesPublisher
    (notesApplication "1.0.1") notesPublishOptions
    ⟨"https://example.com/notes.json", "stable", notesPublicKey, .automatic⟩
    "com.example.notes" "1.0.0" hseed hrelease hvalid hpublish hlimit hkey rfl rfl
    notes_ed25519_sound hparse fun _ => rfl
  exact hchecked

end PamDesktop.Updater
