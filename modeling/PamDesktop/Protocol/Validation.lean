import PamDesktop.Foundations.FileTree

/-!
# Text checks of the protocol crate

The validators that the application manifest and the update feed share. `Build` collects what
the crate is compiled for and the URL parser it links: everything else is a computation on the
text. Lengths are byte lengths, as in the source.
-/

namespace PamDesktop.Protocol

open Foundations

/-- The operating systems that `cfg!` and `std::env::consts::OS` tell apart. -/
inductive OperatingSystem where
  | linux
  | windows
  | macos
  | other (name : String)
deriving DecidableEq

/-- `std::env::consts::OS`. -/
def OperatingSystem.name : OperatingSystem → String
  | .linux => "linux"
  | .windows => "windows"
  | .macos => "macos"
  | .other name => name

/-- The codes of the errors that requests are answered with. -/
inductive ErrorCode where
  | invalidMessage | unsupportedProtocol | unknownCommand | invalidPayload | handlerFailed
  | workerUnavailable | unauthorized | internal | unknownEvent | requestTimedOut
  | requestCancelled | workerCrashed | capabilityDisabled | permissionDenied | resourceNotFound
  | resourceTooLarge | nativeOperationFailed | invalidGrant | updateDisabled | updateUnavailable
  | updateIntegrityFailed | updateInstallFailed | pluginUnavailable | pluginFailed
  | shortcutUnavailable | backgroundJobFailed
deriving DecidableEq

/-- The host of a parsed URL. -/
inductive UrlHost where
  | domain (name : String)
  | ipv4 (address : BitVec 32)
  | ipv6 (address : BitVec 128)
deriving DecidableEq

/-- The parts of a parsed URL that the checks look at. -/
structure ParsedUrl where
  scheme : String
  host : Option UrlHost
  username : String
  password : Option String
  fragment : Option String

/-- What a build of the program fixes: target, debug assertions and the URL parser. -/
structure Build where
  operatingSystem : OperatingSystem
  architecture : String
  debugAssertions : Bool
  parseUrl : String → Option ParsedUrl

/-- Whether the byte separates the components of a path on the target. -/
def Build.separator (build : Build) (byte : UInt8) : Bool :=
  byte == 47 || (build.operatingSystem == .windows && byte == 92)

/-- `u8::is_ascii_lowercase`, on characters. -/
def isAsciiLowercase (c : Char) : Bool := 'a' ≤ c && c ≤ 'z'

/-- `char::is_ascii_uppercase`. -/
def isAsciiUppercase (c : Char) : Bool := 'A' ≤ c && c ≤ 'Z'

/-- `char::is_ascii_digit`. -/
def isAsciiDigit (c : Char) : Bool := '0' ≤ c && c ≤ '9'

/-- `char::is_ascii_alphabetic`. -/
def isAsciiAlphabetic (c : Char) : Bool := isAsciiLowercase c || isAsciiUppercase c

/-- `char::is_ascii_alphanumeric`. -/
def isAsciiAlphanumeric (c : Char) : Bool := isAsciiAlphabetic c || isAsciiDigit c

/-- `char::to_ascii_lowercase`. -/
def toAsciiLowercase (c : Char) : Char :=
  if isAsciiUppercase c then Char.ofNat (c.toNat + 32) else c

/-- `char::is_control`: the general category Cc. -/
def isControl (c : Char) : Bool := c.toNat < 32 || (127 ≤ c.toNat && c.toNat < 160)

/-- `char::is_whitespace`: the property White_Space. -/
def isWhitespace (c : Char) : Bool :=
  (9 ≤ c.toNat && c.toNat ≤ 13) || (0x2000 ≤ c.toNat && c.toNat ≤ 0x200A) ||
    c.toNat ∈ [0x20, 0x85, 0xA0, 0x1680, 0x2028, 0x2029, 0x202F, 0x205F, 0x3000]

/-- A text as `{:?}` prints it, for texts without control characters. -/
def debugText (value : String) : String :=
  "\"" ++ String.ofList (value.toList.flatMap fun c =>
    if c = '"' ∨ c = '\\' then ['\\', c] else [c]) ++ "\""

/-- `validate_identifier`. -/
def validateIdentifier (value label : String) : Except String Unit :=
  match value.toList with
  | [] => .error (label ++ " identifier cannot be empty")
  | first :: rest =>
      if !isAsciiAlphabetic first || 64 < value.utf8ByteSize ||
          !rest.all (fun c => isAsciiAlphanumeric c || ['.', '_', '-'].contains c) then
        .error (label ++ " identifier must begin with a letter and contain at most 64 ASCII " ++
          "letters, numbers, dots, dashes, or underscores")
      else .ok ()

/-- One dot-separated segment of an application identifier. -/
def validateIdentifierSegment : List Char → Except String Unit
  | [] => .error "application identifier cannot contain empty segments"
  | first :: rest =>
      if !isAsciiLowercase first ||
          !rest.all (fun c => isAsciiLowercase c || isAsciiDigit c || c == '-') then
        .error ("application identifier segments must begin with a lowercase letter and " ++
          "contain lowercase letters, numbers, or dashes")
      else .ok ()

/-- `validate_application_identifier`. -/
def validateApplicationIdentifier (value : String) : Except String Unit :=
  let segments := value.toList.splitOn '.'
  if 155 < value.utf8ByteSize || segments.length < 2 then
    .error "application identifier must be a reverse-DNS name of at most 155 bytes"
  else segments.forM validateIdentifierSegment

/-- `validate_text`. -/
def validateText (value label : String) (maximumBytes : Nat) (allowEmpty : Bool) :
    Except String Unit :=
  if (!allowEmpty && value.toList.all isWhitespace) || maximumBytes < value.utf8ByteSize ||
      value.toList.any (fun c => isControl c || c == '\n' || c == '\r') then
    .error (label ++ " must contain " ++ toString (if allowEmpty then 0 else 1) ++ " through " ++
      toString maximumBytes ++ " printable UTF-8 bytes")
  else .ok ()

/-- The characters that `validate_version` allows. -/
def isVersionCharacter (c : Char) : Bool :=
  isAsciiAlphanumeric c || ['.', '+', '-', '~'].contains c

/-- `validate_version`. -/
def validateVersion (value : String) : Except String Unit :=
  if value.toList = [] || 64 < value.utf8ByteSize ||
      !(value.toList.head?.any isAsciiDigit) || !value.toList.all isVersionCharacter then
    .error ("application version must begin with a number and contain at most 64 ASCII " ++
      "letters, numbers, dots, pluses, dashes, or tildes")
  else .ok ()

/-- The components of a path that a validator walks through, or `none` when one of them is
neither normal nor `.`: a root, a drive prefix or `..`. -/
def projectComponents (build : Build) (value : String) : Option (List OsString) :=
  let segments := (osString value).splitOnP build.separator
  let drive := build.operatingSystem == .windows && hasDrive (osString value)
  if segments.head? = some [] ∨ drive ∨ segments.contains [46, 46] then none
  else some (segments.filter fun segment => segment ≠ [] ∧ segment ≠ [46])

/-- `validate_relative_project_path`. -/
def validateRelativeProjectPath (build : Build) (value label : String) : Except String Unit :=
  if value.toList = [] || value.toList.contains '\x00' ||
      (projectComponents build value).isNone then
    .error (label ++ " must be a relative path inside the project")
  else .ok ()

/-- `validate_lower_hex`. -/
def validateLowerHex (value : String) (expectedBytes : Nat) (label : String) :
    Except String Unit :=
  if value.utf8ByteSize ≠ expectedBytes ||
      !value.toList.all (fun c => isAsciiDigit c || ('a' ≤ c && c ≤ 'f')) then
    .error (label ++ " must contain exactly " ++ toString expectedBytes ++
      " lowercase hexadecimal characters")
  else .ok ()

/-- Whether the host of a URL is the local machine. -/
def UrlHost.isLoopback : UrlHost → Bool
  | .domain name => String.ofList (name.toList.map toAsciiLowercase) == "localhost"
  | .ipv4 address => address >>> 24 == 127
  | .ipv6 address => address == 1

/-- The URLs that `validate_update_url` trusts. -/
def trustedUrl (build : Build) (url : ParsedUrl) : Bool :=
  (url.host.isSome && url.username == "" && url.password.isNone && url.fragment.isNone) &&
    (url.scheme == "https" ||
      (build.debugAssertions && (url.scheme == "http" && url.host.any UrlHost.isLoopback)))

/-- `validate_update_url`. -/
def validateUpdateUrl (build : Build) (value label : String) : Except String Unit :=
  if 2048 < value.utf8ByteSize || value.toList.any isControl ||
      !(build.parseUrl value).any (trustedUrl build) then
    .error (label ++ " must be an HTTPS URL without credentials or fragments (debug builds " ++
      "also permit HTTP loopback)")
  else .ok ()

/-- A sequence of two computations that succeeds. -/
theorem except_bind_ok {ε α β : Type} {first : Except ε α} {next : α → Except ε β}
    {value : β} : (first >>= next) = .ok value ↔ ∃ middle, first = .ok middle ∧
      next middle = .ok value := by
  cases first with
  | ok middle => simp [bind, Except.bind]
  | error error => simp [bind, Except.bind]

/-- A check before a computation. -/
theorem check_bind_ok {ε β : Type} {check : Except ε Unit} {next : Unit → Except ε β}
    {value : β} :
    (check >>= next) = .ok value ↔ check = .ok () ∧ next () = .ok value := by
  rw [except_bind_ok]
  constructor
  · intro h
    obtain ⟨⟨⟩, h⟩ := h
    exact h
  · exact fun h => ⟨(), h⟩

end PamDesktop.Protocol
