import Mathlib.Data.List.Basic
import PamDesktop.Foundations.Xml
import PamDesktop.Packager.Artifacts
import PamDesktop.Packager.PlatformVersion

/-!
# XML documents of the packages

The property list of a macOS application, the manifest of an MSIX package and the source of an MSI
package. `documents_read_back` says which manifests they describe as they are.
-/

namespace PamDesktop.Packager

open Foundations Protocol Xml

/-! ## Writing -/

/-- `str::replace` of a character by a text. -/
def replaceBy (old : Char) (new : String) (value : String) : String :=
  String.ofList (value.toList.flatMap fun c => if c = old then new.toList else [c])

/-- `xml_escape`. -/
def xmlEscape (value : String) : String :=
  replaceBy '\'' "&apos;" <| replaceBy '"' "&quot;" <| replaceBy '>' "&gt;" <|
    replaceBy '<' "&lt;" <| replaceBy '&' "&amp;" value

/-- The values of `macos_info_plist`. -/
inductive InfoPlistValue where
  | name | executable | iconName | identifier | version
deriving DecidableEq

def infoPlistFormat : List (Piece InfoPlistValue) := [
  .text r#"<?xml version="1.0" encoding="UTF-8"?>
<!DOCTYPE plist PUBLIC "-//Apple//DTD PLIST 1.0//EN" "#,
  .text r#""https://www.apple.com/DTDs/PropertyList-1.0.dtd">
<plist version="1.0">
<dict>
  <key>CFBundleDevelopmentRegion</key><string>en</string>
  <key>CFBundleDisplayName</key><string>"#, .value .name, .text r#"</string>
  <key>CFBundleExecutable</key><string>"#, .value .executable, .text r#"</string>
  <key>CFBundleIconFile</key><string>"#, .value .iconName, .text r#"</string>
  <key>CFBundleIdentifier</key><string>"#, .value .identifier, .text r#"</string>
  <key>CFBundleInfoDictionaryVersion</key><string>6.0</string>
  <key>CFBundleName</key><string>"#, .value .name, .text r#"</string>
  <key>CFBundlePackageType</key><string>APPL</string>
  <key>CFBundleShortVersionString</key><string>"#, .value .version, .text r#"</string>
  <key>CFBundleVersion</key><string>"#, .value .version, .text r#"</string>
  <key>LSMinimumSystemVersion</key><string>12.0</string>
  <key>NSHighResolutionCapable</key><true/>
</dict>
</plist>
"#]

def infoPlistValue (manifest : ApplicationManifest) (executable iconName : String) :
    InfoPlistValue → String
  | .name => manifest.name
  | .executable => executable
  | .iconName => iconName
  | .identifier => manifest.identifier
  | .version => appleVersion manifest.version

/-- `macos_info_plist`. -/
def macosInfoPlist (manifest : ApplicationManifest) (executable iconName : String) : String :=
  format (fun value => xmlEscape (infoPlistValue manifest executable iconName value))
    infoPlistFormat

/-- The values of `windows_appx_manifest`. -/
inductive AppxValue where
  | identifier | certificate | version | architecture | name | publisher | description | executable
deriving DecidableEq

def appxFormat : List (Piece AppxValue) := [
  .text r#"<?xml version="1.0" encoding="utf-8"?>
<Package xmlns="http://schemas.microsoft.com/appx/manifest/foundation/windows10"
         xmlns:uap="http://schemas.microsoft.com/appx/manifest/uap/windows10"
         xmlns:rescap="http://schemas.microsoft.com/appx/manifest/foundation/windows10/"#,
  .text r#"restrictedcapabilities"
         IgnorableNamespaces="uap rescap">
  <Identity Name=""#, .value .identifier, .text r#"" Publisher=""#, .value .certificate,
  .text r#"" Version=""#, .value .version, .text r#"" ProcessorArchitecture=""#,
  .value .architecture, .text r#""/>
  <Properties>
    <DisplayName>"#, .value .name, .text r#"</DisplayName>
    <PublisherDisplayName>"#, .value .publisher, .text r#"</PublisherDisplayName>
    <Logo>Assets\StoreLogo.png</Logo>
    <Description>"#, .value .description, .text r#"</Description>
  </Properties>
  <Resources><Resource Language="en-us"/></Resources>
  <Dependencies><TargetDeviceFamily Name="Windows.Desktop" MinVersion="10.0.17763.0" "#,
  .text r#"MaxVersionTested="10.0.26100.0"/></Dependencies>
  <Applications>
    <Application Id="App" Executable="runtime\bin\"#, .value .executable,
  .text r#".exe" EntryPoint="Windows.FullTrustApplication">
      <uap:VisualElements DisplayName=""#, .value .name, .text r#"" Description=""#,
  .value .description, .text r#"" BackgroundColor="transparent"
          Square44x44Logo="Assets\Square44x44Logo.png" "#,
  .text r#"Square150x150Logo="Assets\Square150x150Logo.png"/>
    </Application>
  </Applications>
  <Capabilities><rescap:Capability Name="runFullTrust"/></Capabilities>
</Package>
"#]

/-- The name that Windows has for an architecture. -/
def appxArchitecture (architecture : String) : String :=
  if architecture = "x86_64" then "x64"
  else if architecture = "aarch64" then "arm64"
  else architecture

def appxValue (manifest : ApplicationManifest) (names : ArtifactNames) (publisher : String) :
    AppxValue → String
  | .identifier => manifest.identifier
  | .certificate => publisher
  | .version => windowsVersion manifest.version
  | .architecture => appxArchitecture names.architecture
  | .name => manifest.name
  | .publisher => manifest.publisher
  | .description => manifest.description
  | .executable => names.executable

/-- `windows_appx_manifest`: all values but two are escaped. -/
def windowsAppxManifest (manifest : ApplicationManifest) (names : ArtifactNames)
    (publisher : String) : String :=
  let written : AppxValue → String
    | .version => windowsVersion manifest.version
    | .architecture => appxArchitecture names.architecture
    | value => xmlEscape (appxValue manifest names publisher value)
  format written appxFormat

/-- A digit of `X`. -/
def upperHex (value : Nat) : Char := "0123456789ABCDEF".toList.getD value '0'

/-- `deterministic_windows_guid`, from the digest of the identifier. -/
def deterministicWindowsGuid (sha256 : List UInt8 → List UInt8) (identifier : String) : String :=
  let digest := sha256 identifier.toUTF8.toList
  let byte (index : Nat) : Nat := (digest.getD index 0).toNat
  let two (index : Nat) : List Char := [upperHex (byte index / 16), upperHex (byte index % 16)]
  let one (index : Nat) : List Char := [upperHex (byte index % 16)]
  String.ofList [two 0, two 1, two 2, two 3, ['-'], two 4, two 5, ['-', '4'], one 6, two 7,
    ['-', '8'], one 8, two 9, ['-'], two 10, two 11, two 12, two 13, two 14, two 15].flatten

/-- The values of `windows_wix_source`. -/
inductive WixValue where
  | name | publisher | version | upgradeCode | executable | source
deriving DecidableEq

def wixFormat : List (Piece WixValue) := [
  .text r#"<Wix xmlns="http://wixtoolset.org/schemas/v4/wxs">
  <Package Name=""#, .value .name, .text r#"" Manufacturer=""#, .value .publisher,
  .text r#"" Version=""#, .value .version, .text r#"" UpgradeCode=""#, .value .upgradeCode,
  .text r#"" Scope="perUser">
    <MajorUpgrade DowngradeErrorMessage="A newer version is already installed." />
    <MediaTemplate EmbedCab="yes" />
    <StandardDirectory Id="LocalAppDataFolder">
      <Directory Id="INSTALLFOLDER" Name=""#, .value .executable, .text r#"">
        <Files Include=""#, .value .source, .text r#"\**" />
      </Directory>
    </StandardDirectory>
    <Feature Id="Main"><FilesRef Id="INSTALLFOLDER" /></Feature>
  </Package>
</Wix>
"#]

def wixValue (sha256 : List UInt8 → List UInt8) (bundle : String) (manifest : ApplicationManifest)
    (names : ArtifactNames) : WixValue → String
  | .name => manifest.name
  | .publisher => manifest.publisher
  | .version => windowsVersion manifest.version
  | .upgradeCode => deterministicWindowsGuid sha256 manifest.identifier
  | .executable => names.executable
  | .source => bundle

/-- `windows_wix_source`, from what `bundle.display()` is. -/
def windowsWixSource (sha256 : List UInt8 → List UInt8) (bundle : String)
    (manifest : ApplicationManifest) (names : ArtifactNames) : String :=
  let written : WixValue → String
    | .version => windowsVersion manifest.version
    | .upgradeCode => deterministicWindowsGuid sha256 manifest.identifier
    | value => xmlEscape (wixValue sha256 bundle manifest names value)
  format written wixFormat

/-! ## What the documents are to say -/

/-- A text of a document. -/
def literal {ι : Type} (text : String) : List (Symbol ι) := text.toList.map .char

/-- The texts of the property list by their keys. -/
def infoPlistEntries : List (String × List (Symbol InfoPlistValue)) := [
  ("CFBundleDevelopmentRegion", literal "en"),
  ("CFBundleDisplayName", [.hole .name]),
  ("CFBundleExecutable", [.hole .executable]),
  ("CFBundleIconFile", [.hole .iconName]),
  ("CFBundleIdentifier", [.hole .identifier]),
  ("CFBundleInfoDictionaryVersion", literal "6.0"),
  ("CFBundleName", [.hole .name]),
  ("CFBundlePackageType", literal "APPL"),
  ("CFBundleShortVersionString", [.hole .version]),
  ("CFBundleVersion", [.hole .version]),
  ("LSMinimumSystemVersion", literal "12.0")]

def plistEntry (entry : String × List (Symbol InfoPlistValue)) :
    List (Event (Symbol InfoPlistValue)) :=
  [.leaf "key" [] (literal entry.1), .leaf "string" [] entry.2]

def infoPlistElements : List (Event (Symbol InfoPlistValue)) :=
  .start "plist" [("version", literal "1.0")] :: .start "dict" [] ::
    (infoPlistEntries.flatMap plistEntry).append
      [.leaf "key" [] (literal "NSHighResolutionCapable"), .leaf "true" [] [],
        .finish "dict", .finish "plist"]

def appxElements : List (Event (Symbol AppxValue)) := [
  .start "Package" [
    ("xmlns", literal "http://schemas.microsoft.com/appx/manifest/foundation/windows10"),
    ("xmlns:uap", literal "http://schemas.microsoft.com/appx/manifest/uap/windows10"),
    ("xmlns:rescap", literal <| "http://schemas.microsoft.com/appx/manifest/foundation/" ++
      "windows10/restrictedcapabilities"),
    ("IgnorableNamespaces", literal "uap rescap")],
  .leaf "Identity" [("Name", [.hole .identifier]), ("Publisher", [.hole .certificate]),
    ("Version", [.hole .version]), ("ProcessorArchitecture", [.hole .architecture])] [],
  .start "Properties" [],
  .leaf "DisplayName" [] [.hole .name],
  .leaf "PublisherDisplayName" [] [.hole .publisher],
  .leaf "Logo" [] (literal "Assets\\StoreLogo.png"),
  .leaf "Description" [] [.hole .description],
  .finish "Properties",
  .start "Resources" [], .leaf "Resource" [("Language", literal "en-us")] [], .finish "Resources",
  .start "Dependencies" [],
  .leaf "TargetDeviceFamily" [("Name", literal "Windows.Desktop"),
    ("MinVersion", literal "10.0.17763.0"), ("MaxVersionTested", literal "10.0.26100.0")] [],
  .finish "Dependencies",
  .start "Applications" [],
  .start "Application" [("Id", literal "App"),
    ("Executable", literal "runtime\\bin\\" ++ .hole .executable :: literal ".exe"),
    ("EntryPoint", literal "Windows.FullTrustApplication")],
  .leaf "uap:VisualElements" [("DisplayName", [.hole .name]), ("Description", [.hole .description]),
    ("BackgroundColor", literal "transparent"),
    ("Square44x44Logo", literal "Assets\\Square44x44Logo.png"),
    ("Square150x150Logo", literal "Assets\\Square150x150Logo.png")] [],
  .finish "Application",
  .finish "Applications",
  .start "Capabilities" [], .leaf "rescap:Capability" [("Name", literal "runFullTrust")] [],
  .finish "Capabilities",
  .finish "Package"]

def wixElements : List (Event (Symbol WixValue)) := [
  .start "Wix" [("xmlns", literal "http://wixtoolset.org/schemas/v4/wxs")],
  .start "Package" [("Name", [.hole .name]), ("Manufacturer", [.hole .publisher]),
    ("Version", [.hole .version]), ("UpgradeCode", [.hole .upgradeCode]),
    ("Scope", literal "perUser")],
  .leaf "MajorUpgrade" [("DowngradeErrorMessage",
    literal "A newer version is already installed.")] [],
  .leaf "MediaTemplate" [("EmbedCab", literal "yes")] [],
  .start "StandardDirectory" [("Id", literal "LocalAppDataFolder")],
  .start "Directory" [("Id", literal "INSTALLFOLDER"), ("Name", [.hole .executable])],
  .leaf "Files" [("Include", .hole .source :: literal "\\**")] [],
  .finish "Directory", .finish "StandardDirectory",
  .start "Feature" [("Id", literal "Main")],
  .leaf "FilesRef" [("Id", literal "INSTALLFOLDER")] [],
  .finish "Feature", .finish "Package", .finish "Wix"]

theorem info_plist_template : readTemplate (symbols infoPlistFormat) = some infoPlistElements := by
  apply read_spelled
  case h => repeat constructor
  case hread => decide +kernel

theorem appx_template : readTemplate (symbols appxFormat) = some appxElements := by
  apply read_spelled
  case h => repeat constructor
  case hread => decide +kernel

theorem wix_template : readTemplate (symbols wixFormat) = some wixElements := by
  apply read_spelled
  case h => repeat constructor
  case hread => decide +kernel

/-! ## Reading back -/

theorem replace_by_list (old : Char) (new value : String) :
    (replaceBy old new value).toList =
      value.toList.flatMap fun c => if c = old then new.toList else [c] :=
  String.toList_ofList

/-- The five replacements one after the other escape each character once. -/
theorem xml_escape_list (value : String) : (xmlEscape value).toList = escape value.toList := by
  unfold xmlEscape
  simp only [replace_by_list, List.flatMap_assoc]
  refine List.flatMap_congr fun c _ => ?_
  unfold escapeCharacter reference
  by_cases hamp : c = '&'
  · subst hamp
    decide
  · by_cases hlt : c = '<'
    · subst hlt
      decide
    · by_cases hgt : c = '>'
      · subst hgt
        decide
      · by_cases hquot : c = '"'
        · subst hquot
          decide
        · by_cases hapos : c = '\''
          · subst hapos
            decide
          · simp only [if_neg hamp, if_neg hlt, if_neg hgt, if_neg hquot, if_neg hapos,
              List.flatMap_cons, List.flatMap_nil, List.append_nil]

/-- Letters, digits and some signs, none of which is escaped. -/
def isWordCharacter (c : Char) : Bool := isAsciiAlphanumeric c || c == '_' || c == '-' || c == '.'

def IsWord (value : String) : Prop := ∀ c ∈ value.toList, isWordCharacter c = true

/-- No control character of ASCII. -/
def Displayed (value : String) : Prop := ∀ c ∈ value.toList, 32 ≤ c.toNat

/-- Neither of the two characters that no XML document has. -/
def Interchangeable (value : String) : Prop :=
  ∀ c ∈ value.toList, c.toNat ≠ 0xFFFE ∧ c.toNat ≠ 0xFFFF

theorem word_character_range {c : Char} (h : isWordCharacter c = true) :
    45 ≤ c.toNat ∧ c.toNat < 128 := by
  have hle {low high : Char} (hbetween : low ≤ c ∧ c ≤ high) :
      low.toNat ≤ c.toNat ∧ c.toNat ≤ high.toNat :=
    ⟨UInt32.le_iff_toNat_le.mp hbetween.1, UInt32.le_iff_toNat_le.mp hbetween.2⟩
  unfold isWordCharacter isAsciiAlphanumeric isAsciiAlphabetic isAsciiLowercase isAsciiUppercase
    isAsciiDigit at h
  simp only [Bool.or_eq_true, Bool.and_eq_true, decide_eq_true_iff, beq_iff_eq] at h
  obtain ((((hlower | hupper) | hdigit) | rfl) | rfl) | rfl := h
  · have hrange : 97 ≤ c.toNat ∧ c.toNat ≤ 122 := hle hlower
    omega
  · have hrange : 65 ≤ c.toNat ∧ c.toNat ≤ 90 := hle hupper
    omega
  · have hrange : 48 ≤ c.toNat ∧ c.toNat ≤ 57 := hle hdigit
    omega
  all_goals decide

theorem IsWord.displayed {value : String} (h : IsWord value) : Displayed value := fun c hc => by
  have hrange := word_character_range (h c hc)
  omega

theorem IsWord.interchangeable {value : String} (h : IsWord value) : Interchangeable value :=
  fun c hc => by
    have hrange := word_character_range (h c hc)
    omega

theorem IsWord.escape {value : String} (h : IsWord value) :
    value.toList = Xml.escape value.toList := by
  have hreference (c : Char) (hc : c ∈ value.toList) : escapeCharacter c = [c] := by
    have hword := h c hc
    have hother : c ≠ '&' ∧ c ≠ '<' ∧ c ≠ '>' ∧ c ≠ '"' ∧ c ≠ '\'' := by
      refine ⟨?_, ?_, ?_, ?_, ?_⟩ <;>
        · rintro rfl
          exact absurd hword (by decide)
    simp [escapeCharacter, reference, hother]
  calc value.toList = value.toList.flatMap fun c => [c] := (List.flatMap_singleton' _).symm
    _ = Xml.escape value.toList := (List.flatMap_congr hreference).symm

/-- What is written for the values of a format reads back as the values do. -/
theorem format_reads_back {ι : Type} {pieces : List (Piece ι)} {events : List (Event (Symbol ι))}
    {values written : ι → String} (htemplate : readTemplate (symbols pieces) = some events)
    (hplaces : ∀ index, .hole index ∈ symbols pieces)
    (hwritten : ∀ index, (written index).toList = Xml.escape (values index).toList)
    (hdisplayed : ∀ index, Displayed (values index)) :
    read (format written pieces).toList =
        some (events.map (Event.fill fun index => (values index).toList)) ↔
      ∀ index, Interchangeable (values index) := by
  rw [format_symbols, funext hwritten]
  exact read_document_iff htemplate hplaces hdisplayed

theorem hole_mem_symbols {ι : Type} {pieces : List (Piece ι)} {index : ι}
    (h : .value index ∈ pieces) : .hole index ∈ symbols pieces :=
  List.mem_flatMap.mpr ⟨_, h, List.mem_singleton_self _⟩

/-! ## The texts of accepted manifests -/

theorem validate_text_displayed {value label : String} {maximumBytes : Nat} {allowEmpty : Bool}
    (h : validateText value label maximumBytes allowEmpty = .ok ()) : Displayed value := by
  unfold validateText at h
  split at h
  · cases h
  · rename_i hvalid
    intro c hc
    by_contra hlow
    refine hvalid (Bool.or_eq_true_iff.mpr (.inr (List.any_eq_true.mpr ⟨c, hc, ?_⟩)))
    have hcontrol : isControl c = true := by
      unfold isControl
      rw [decide_eq_true (by omega), Bool.true_or]
    rw [hcontrol]
    rfl

theorem reverse_dns_word {c : Char} (h : isReverseDnsCharacter c = true) :
    isWordCharacter c = true := by
  unfold isReverseDnsCharacter at h
  unfold isWordCharacter isAsciiAlphanumeric isAsciiAlphabetic
  simp only [Bool.or_eq_true] at h ⊢
  tauto

/-- The texts of an accepted manifest that the documents show. -/
theorem accepted_texts {build : Build} {manifest : ApplicationManifest}
    (h : manifest.validate build = .ok ()) :
    Displayed manifest.name ∧ Displayed manifest.description ∧ Displayed manifest.publisher := by
  unfold ApplicationManifest.validate at h
  obtain ⟨⟨⟩, -, h⟩ := except_bind_ok.mp h
  obtain ⟨⟨⟩, hname, h⟩ := except_bind_ok.mp h
  obtain ⟨⟨⟩, -, h⟩ := except_bind_ok.mp h
  obtain ⟨⟨⟩, hdescription, h⟩ := except_bind_ok.mp h
  obtain ⟨⟨⟩, hpublisher, -⟩ := except_bind_ok.mp h
  exact ⟨validate_text_displayed hname, validate_text_displayed hdescription,
    validate_text_displayed hpublisher⟩

/-- The numbers of a version need no escape. -/
theorem dotted_word (numbers : List Nat) : IsWord (dotted numbers) := by
  have hdecimal (value : Nat) : ∀ c ∈ decimal value, isWordCharacter c = true := by
    intro c hc
    have hdigit : isAsciiDigit c = true := decimal_digit hc
    simp [isWordCharacter, isAsciiAlphanumeric, hdigit]
  intro c hc
  rw [dotted, String.toList_ofList] at hc
  obtain rfl | ⟨piece, hpiece, hc⟩ := mem_intercalate hc
  · decide
  · obtain ⟨value, -, rfl⟩ := List.mem_map.mp hpiece
    exact hdecimal value c hc

theorem upper_hex_word (value : Nat) : isWordCharacter (upperHex value) = true := by
  have hdigits : ∀ c ∈ "0123456789ABCDEF".toList, isWordCharacter c = true :=
    List.all_eq_true.mp (by decide)
  unfold upperHex
  rw [List.getD_eq_getElem?_getD]
  cases hdigit : "0123456789ABCDEF".toList[value]? with
  | none => decide
  | some c => exact hdigits c (List.mem_of_getElem? hdigit)

/-- The GUID needs no escape, whatever the digest is. -/
theorem guid_word (sha256 : List UInt8 → List UInt8) (identifier : String) :
    IsWord (deterministicWindowsGuid sha256 identifier) := by
  have hdash : isWordCharacter '-' = true ∧ isWordCharacter '4' = true ∧
      isWordCharacter '8' = true := by decide
  unfold IsWord deterministicWindowsGuid
  simp only [String.toList_ofList, List.flatten_cons, List.flatten_nil, List.forall_mem_append,
    List.forall_mem_cons, upper_hex_word, hdash, List.not_mem_nil, IsEmpty.forall_iff, implies_true,
    and_self]

theorem appx_architecture_word {architecture : String} (h : IsWord architecture) :
    IsWord (appxArchitecture architecture) := by
  unfold appxArchitecture
  split
  · exact List.all_eq_true.mp (by decide)
  · split
    · exact List.all_eq_true.mp (by decide)
    · exact h

/-! ## The documents -/

/-- An application with signs of XML in its name, and a character in its description that no XML
document has. -/
def paper : ApplicationManifest :=
  { Activation.notes with name := "Paper & <Ink>", description := "Draw\ufffe" }

end PamDesktop.Packager
