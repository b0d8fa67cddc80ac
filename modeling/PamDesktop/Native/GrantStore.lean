import Mathlib.Algebra.GroupWithZero.Nat
import PamDesktop.Foundations.Disk
import PamDesktop.Protocol.Wire

/-!
# The store of persistent grants

`persist_grants` writes the persistent grants of an application into a JSON file and
`load_persistent_grants` reads them at the next start. The writer bounds the number of grants, the
reader the number of bytes: `load_persisted_iff` says that the grants come back exactly if their
text is no longer than a mebibyte.
-/

namespace PamDesktop.Protocol.FileAccess

/-- `can_read`. -/
def canRead : FileAccess → Bool
  | .read | .readWrite => true
  | .write => false

/-- `can_write`. -/
def canWrite : FileAccess → Bool
  | .write | .readWrite => true
  | .read => false

end PamDesktop.Protocol.FileAccess

namespace PamDesktop.Native

open Foundations Protocol

/-! ## Errors -/

/-- The kind of an I/O error, as far as kinds are told apart. -/
inductive IoKind where
  | notFound | permissionDenied | other
deriving DecidableEq

structure IoError where
  kind : IoKind
  text : String
deriving DecidableEq

/-- `NativeError`. -/
structure NativeError where
  code : ErrorCode
  message : String
deriving DecidableEq

namespace NativeError

def invalid (message : String) : NativeError := ⟨.invalidPayload, message⟩

def permission (message : String) : NativeError := ⟨.permissionDenied, message⟩

def invalidGrant : NativeError := ⟨.invalidGrant, "The file grant is unknown or has expired."⟩

def notFound (message : String) : NativeError := ⟨.resourceNotFound, message⟩

def tooLarge (message : String) : NativeError := ⟨.resourceTooLarge, message⟩

def native (context error : String) : NativeError :=
  ⟨.nativeOperationFailed, context ++ ": " ++ error⟩

def io (context : String) (error : IoError) : NativeError :=
  let code : ErrorCode := match error.kind with
    | .notFound => .resourceNotFound
    | .permissionDenied => .permissionDenied
    | .other => .nativeOperationFailed
  ⟨code, context ++ ": " ++ error.text⟩

end NativeError

/-- `map_err` of an I/O error. -/
def ioResult {α : Type} (context : String) : Except IoError α → Except NativeError α
  | .ok value => .ok value
  | .error error => .error (.io context error)

/-! ## Writing -/

/-- `PersistentGrant`, with the bytes of the path. -/
structure PersistentGrant where
  path : OsString
  access : FileAccess
deriving DecidableEq

/-- The text of a path, if it is one. -/
def pathText (path : OsString) : Option String := String.fromUTF8? ⟨path.toArray⟩

/-- A path, which is written as a text. -/
def pathCodec : Codec OsString where
  encode path := .string ((pathText path).getD "")
  decode
    | .string value => some (osString value)
    | _ => none
  Valid path := (pathText path).isSome = true
  depth := 0
  decode_encode path h := by
    obtain ⟨text, htext⟩ := Option.isSome_iff_exists.mp h
    show some (osString ((pathText path).getD "")) = some path
    rw [htext]
    exact congrArg some (os_string_from_utf8 htext)
  depth_encode _ _ := Nat.le_refl 0

def PersistentGrant.codec : Codec PersistentGrant :=
  Record.start PersistentGrant PersistentGrant.mk
    |>.required "path" (·.path) pathCodec
    |>.required "access" (·.access) FileAccess.codec
    |>.codec true

/-- The persistent grants by their ids, in the order in which the map goes through them. -/
abbrev PersistentGrants := List (String × PersistentGrant)

/-- The grants as a JSON value. -/
def grantsJson (grants : PersistentGrants) : Json :=
  .object (grants.map fun entry => (entry.1, PersistentGrant.codec.encode entry.2))

/-- `serde_json::to_vec` of the grants, which fails on a path that is no text. -/
def encodeGrants (grants : PersistentGrants) : Except NativeError (List UInt8) :=
  if grants.all fun entry => (pathText entry.2.path).isSome then .ok (grantsJson grants).bytes
  else .error (.native "Cannot encode persistent file grants"
    "path contains invalid UTF-8 characters")

/-- How many grants an application may retain. -/
def maxPersistentGrants : Nat := 128

/-- What the file operations of `persist_grants` return. -/
structure Writes where
  createDirectory : Except IoError Unit
  openTemporary : Except IoError Unit
  write : Except IoError Unit
  rename : Except IoError Unit

/-- `persist_grants`: the contents that the store has afterwards. -/
def persistGrants (writes : Writes) (path : Location) (grants : PersistentGrants) :
    Except NativeError (List UInt8) :=
  if maxPersistentGrants < grants.length then
    .error (.tooLarge "Applications may retain at most 128 persistent file grants.")
  else if path.isEmpty then .error (.native "Cannot persist file grants" "missing parent")
  else do
    ioResult "Cannot create the file grant store" writes.createDirectory
    let bytes ← encodeGrants grants
    ioResult "Cannot create persistent file grants" writes.openTemporary
    ioResult "Cannot write persistent file grants" writes.write
    ioResult "Cannot publish persistent file grants" writes.rename
    .ok bytes

/-! ## Reading -/

/-- A regular file at the path of the store, or one that a link there leads to. -/
structure StoreFile where
  link : Bool
  contents : List UInt8
deriving DecidableEq

/-- The JSON crate: the parser and the text of its error. -/
structure JsonReader where
  parse : List UInt8 → Option Json
  error : List UInt8 → String

/-- How long the store may be. -/
def maxStoreBytes : Nat := 1024 * 1024

/-- `u8::is_ascii_hexdigit`. -/
def isHexByte (byte : UInt8) : Bool :=
  (48 ≤ byte && byte ≤ 57) || (97 ≤ byte && byte ≤ 102) || (65 ≤ byte && byte ≤ 70)

/-- An entry that the store may hold. -/
def validEntry (entry : String × PersistentGrant) : Bool :=
  entry.1.utf8ByteSize == 64 && (osString entry.1).all isHexByte &&
    entry.2.path.head? == some 47

/-- `load_persistent_grants`, of what is at the path of the store. -/
def loadPersistentGrants (reader : JsonReader) :
    Option StoreFile → Except String {entries // Sorted PersistentGrant entries}
  | none => .ok ⟨[], List.Pairwise.nil⟩
  | some file =>
      if file.link || decide (maxStoreBytes < file.contents.length) then
        .error "persistent file grants must be a regular file below 1 MiB"
      else
        match PersistentGrant.codec.map.fromSlice reader.parse file.contents with
        | none => .error ("cannot decode persistent file grants: " ++ reader.error file.contents)
        | some grants =>
            if maxPersistentGrants < grants.1.length || !grants.1.all validEntry then
              .error "persistent file grant store has an invalid entry"
            else .ok grants

/-! ## The length of the store -/

/-- How many bytes a character takes in a JSON string. -/
def escapedChar (c : Char) : Nat := (textBytes (escapeChar c)).length

/-- How many bytes a text takes in a JSON string. -/
def escapedSize (text : String) : Nat := (text.toList.map escapedChar).sum

/-- How many bytes an entry takes: the id, the path, and the names, quotes and braces. -/
def entrySize (entry : String × PersistentGrant) : Nat :=
  escapedSize entry.1 + escapedSize ((pathText entry.2.path).getD "") + 25

/-- How many bytes the store takes, with its braces and commas. -/
def storeSize (grants : PersistentGrants) : Nat :=
  2 + (grants.map entrySize).sum + (grants.length - 1)

theorem text_bytes_append (first second : List Char) :
    textBytes (first ++ second) = textBytes first ++ textBytes second := List.flatMap_append

theorem text_bytes_cons (c : Char) (rest : List Char) :
    textBytes (c :: rest) = String.utf8EncodeChar c ++ textBytes rest := List.flatMap_cons

theorem text_bytes_quoted (text : String) :
    (textBytes (quoted escapeChar text)).length = escapedSize text + 2 := by
  have hinner : (textBytes (text.toList.flatMap escapeChar)).length = escapedSize text := by
    unfold escapedSize
    induction text.toList with
    | nil => rfl
    | cons c rest ih =>
        rw [List.flatMap_cons, text_bytes_append, List.length_append, ih, List.map_cons,
          List.sum_cons]
        rfl
  rw [quoted, text_bytes_append, text_bytes_cons, List.length_append, List.length_append, hinner]
  show 1 + escapedSize text + 1 = escapedSize text + 2
  omega

/-- The commas between texts. -/
theorem text_bytes_commas (texts : List (List Char)) :
    (textBytes (commas [] texts)).length =
      (texts.map fun text => (textBytes text).length).sum + (texts.length - 1) := by
  induction texts with
  | nil => rfl
  | cons first rest ih =>
      cases rest with
      | nil => simp [commas]
      | cons second others =>
          have hstep : commas [] (first :: second :: others) =
              first ++ [','] ++ commas [] (second :: others) := rfl
          rw [hstep, text_bytes_append, text_bytes_append, List.length_append,
            List.length_append, ih]
          have hcomma : (textBytes [',']).length = 1 := rfl
          simp only [List.map_cons, List.sum_cons, List.length_cons, hcomma]
          omega

theorem text_bytes_access (access : FileAccess) :
    (textBytes ((FileAccess.codec.encode access).text escapeChar)).length = 1 := by
  cases access <;> rfl

theorem text_bytes_member (name : String) (value : List Char) :
    (textBytes (quoted escapeChar name ++ ':' :: value)).length =
      escapedSize name + 3 + (textBytes value).length := by
  rw [text_bytes_append, text_bytes_cons, List.length_append, List.length_append,
    text_bytes_quoted]
  show _ + 2 + (1 + _) = _
  omega

theorem text_bytes_braces (inner : List Char) :
    (textBytes ('\x7b' :: inner ++ ['\x7d'])).length = (textBytes inner).length + 2 := by
  rw [text_bytes_append, text_bytes_cons, List.length_append, List.length_append]
  show 1 + _ + 1 = _
  omega

theorem text_bytes_grant (grant : PersistentGrant) :
    (textBytes ((PersistentGrant.codec.encode grant).text escapeChar)).length =
      escapedSize ((pathText grant.path).getD "") + 22 := by
  have htext : (PersistentGrant.codec.encode grant).text escapeChar =
      '\x7b' :: commas []
        [quoted escapeChar "path" ++ ':' :: quoted escapeChar ((pathText grant.path).getD ""),
          quoted escapeChar "access" ++ ':' ::
            (FileAccess.codec.encode grant.access).text escapeChar] ++ ['\x7d'] := rfl
  rw [htext, text_bytes_braces, text_bytes_commas, List.map_cons, List.map_singleton,
    text_bytes_member, text_bytes_member, text_bytes_quoted, text_bytes_access]
  have hnames : escapedSize "path" = 4 ∧ escapedSize "access" = 6 := by decide
  rw [hnames.1, hnames.2]
  simp only [List.sum_cons, List.sum_nil, List.length_cons, List.length_nil]
  omega

/-- The length of the store. -/
theorem store_size (grants : PersistentGrants) :
    (grantsJson grants).bytes.length = storeSize grants := by
  have htexts : ∀ members : PersistentGrants,
      (memberTexts escapeChar
        (members.map fun entry => (entry.1, PersistentGrant.codec.encode entry.2))).map
          (fun text => (textBytes text).length) = members.map entrySize ∧
      (memberTexts escapeChar
        (members.map fun entry => (entry.1, PersistentGrant.codec.encode entry.2))).length =
          members.length := by
    intro members
    induction members with
    | nil => exact ⟨rfl, rfl⟩
    | cons entry rest ih =>
        rw [List.map_cons, memberTexts, List.map_cons, List.map_cons, List.length_cons,
          List.length_cons, ih.1, ih.2, text_bytes_member, text_bytes_grant]
        refine ⟨?_, rfl⟩
        congr 1
        unfold entrySize
        omega
  have htext : (grantsJson grants).text escapeChar = '\x7b' :: commas [] (memberTexts escapeChar
      (grants.map fun entry => (entry.1, PersistentGrant.codec.encode entry.2))) ++ ['\x7d'] := rfl
  rw [Json.bytes, htext, text_bytes_braces, text_bytes_commas, (htexts grants).1,
    (htexts grants).2]
  unfold storeSize
  omega

/-! ## Reading what was written -/

/-- Grants that the store can hold. -/
structure Storable (grants : PersistentGrants) : Prop where
  distinct : (grants.map Prod.fst).Nodup
  bounded : grants.length ≤ maxPersistentGrants
  valid : ∀ entry ∈ grants, validEntry entry = true
  texts : ∀ entry ∈ grants, (pathText entry.2.path).isSome = true

theorem Storable.encodes {grants : PersistentGrants} (h : Storable grants) :
    encodeGrants grants = .ok (grantsJson grants).bytes := by
  unfold encodeGrants
  rw [if_pos (List.all_eq_true.mpr h.texts)]

theorem grants_depth (grants : PersistentGrants) (h : Storable grants) :
    (grantsJson grants).depth < recursionLimit := by
  have hmembers : (grantsJson grants).depth ≤ PersistentGrant.codec.depth + 1 := by
    refine Nat.succ_le_succ (depth_of_members_le fun member hmem => ?_)
    obtain ⟨entry, hentry, rfl⟩ := List.mem_map.mp hmem
    exact PersistentGrant.codec.depth_encode entry.2 ⟨⟨trivial, h.texts entry hentry⟩, trivial⟩
  exact Nat.lt_of_le_of_lt hmembers (by decide)

/-- A store that is not too long is read into the grants that were written, and only such a one. -/
theorem load_persisted_iff {reader : JsonReader} {grants : PersistentGrants} (h : Storable grants)
    (hparse : Parses reader.parse (grantsJson grants).bytes (grantsJson grants)) :
    (∃ loaded, loadPersistentGrants reader (some ⟨false, (grantsJson grants).bytes⟩) = .ok loaded ∧
      loaded.1.Perm grants) ↔ storeSize grants ≤ maxStoreBytes := by
  rw [← store_size]
  unfold loadPersistentGrants
  simp only [Bool.false_or, decide_eq_true_eq]
  by_cases hsize : maxStoreBytes < (grantsJson grants).bytes.length
  · rw [if_pos hsize]
    constructor
    · intro hloaded
      obtain ⟨loaded, hok, _⟩ := hloaded
      cases hok
    · intro hle
      exact absurd hsize (Nat.not_lt.mpr hle)
  · rw [if_neg hsize]
    refine ⟨fun _ => Nat.le_of_not_lt hsize, fun _ => ?_⟩
    have hentries : ∀ entry ∈ ([] ++ grants : PersistentGrants),
        PersistentGrant.codec.Valid entry.2 :=
      fun entry hentry => ⟨⟨trivial, h.texts entry hentry⟩, trivial⟩
    obtain ⟨all, hall, hperm⟩ := read_entries_perm List.Pairwise.nil h.distinct hentries
    have hread : PersistentGrant.codec.map.fromSlice reader.parse (grantsJson grants).bytes =
        some all := by
      rw [Codec.fromSlice, hparse (grants_depth grants h)]
      exact hall
    have hvalid : all.1.all validEntry = true :=
      List.all_eq_true.mpr fun entry hentry => h.valid entry (hperm.mem_iff.mp hentry)
    have hlength : decide (maxPersistentGrants < all.1.length) = false := by
      rw [hperm.length_eq]
      exact decide_eq_false (Nat.not_lt.mpr h.bounded)
    refine ⟨all, ?_, hperm⟩
    rw [hread]
    simp only [hvalid, hlength]
    rfl

end PamDesktop.Native
