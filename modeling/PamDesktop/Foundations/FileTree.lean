import Mathlib.Algebra.Group.Nat.Defs
import Mathlib.Data.List.Basic

/-!
# File names and directory trees

File names are byte strings, as the operating system has them: `toStringLossy` and `extension`
follow the Rust standard library on them, and `normalComponents` follows `Path::components` on
a relative path. A directory tree is a `Node`. `Node.Unlinked` is one step of a recursive
removal, so every tree that a removal leaves behind when it is cut off is reached by such
steps.
-/

namespace Foundations

/-- A file name or a path as the operating system stores it. -/
abbrev OsString := List UInt8

/-- The bytes of a text. -/
def osString (text : String) : OsString := text.toUTF8.data.toList

/-- The ranges of the bytes that continue a UTF-8 sequence with this first byte. -/
def utf8Continuations (first : UInt8) : List (UInt8 × UInt8) :=
  if 0xC2 ≤ first ∧ first ≤ 0xDF then [(0x80, 0xBF)]
  else if first = 0xE0 then [(0xA0, 0xBF), (0x80, 0xBF)]
  else if first = 0xED then [(0x80, 0x9F), (0x80, 0xBF)]
  else if 0xE1 ≤ first ∧ first ≤ 0xEF then [(0x80, 0xBF), (0x80, 0xBF)]
  else if first = 0xF0 then [(0x90, 0xBF), (0x80, 0xBF), (0x80, 0xBF)]
  else if 0xF1 ≤ first ∧ first ≤ 0xF3 then [(0x80, 0xBF), (0x80, 0xBF), (0x80, 0xBF)]
  else if first = 0xF4 then [(0x80, 0x8F), (0x80, 0xBF), (0x80, 0xBF)]
  else []

/-- The longest prefix of the bytes that fits the ranges one by one. -/
def fittingPrefix : List (UInt8 × UInt8) → List UInt8 → List UInt8
  | (low, high) :: ranges, byte :: bytes =>
      if low ≤ byte ∧ byte ≤ high then byte :: fittingPrefix ranges bytes else []
  | _, _ => []

/-- The scalar value of a complete multi-byte sequence. -/
def scalarValue (first : UInt8) (tail : List UInt8) : Nat :=
  tail.foldl (fun value byte => value * 64 + byte.toNat % 64) (first.toNat % 2 ^ (6 - tail.length))

/-- Decode at most `fuel` sequences, one replacement character for each maximal ill-formed one. -/
def lossyChars : Nat → OsString → List Char
  | fuel + 1, first :: rest =>
      if first < 0x80 then Char.ofNat first.toNat :: lossyChars fuel rest
      else
        let tail := fittingPrefix (utf8Continuations first) rest
        let complete := utf8Continuations first ≠ [] ∧
          tail.length = (utf8Continuations first).length
        (if complete then Char.ofNat (scalarValue first tail) else Char.ofNat 0xFFFD) ::
          lossyChars fuel (rest.drop tail.length)
  | _, _ => []

/-- `OsStr::to_string_lossy`. -/
def toStringLossy (name : OsString) : String := String.ofList (lossyChars name.length name)

/-- `Path::extension` of a path with this file name: what follows the last dot, unless the name
is `..` or has no dot after its first byte. -/
def extension (name : OsString) : Option OsString :=
  let last := name.reverse.takeWhile (· ≠ 46)
  let stem := (name.reverse.dropWhile (· ≠ 46)).tail
  if name = [46, 46] ∨ stem = [] then none else some last.reverse

/-- The bytes of a text, character by character. -/
theorem os_string_of_list (characters : List Char) :
    osString (String.ofList characters) = characters.flatMap String.utf8EncodeChar := by
  simp [osString, List.utf8Encode]

@[simp] theorem os_string_append (first second : String) :
    osString (first ++ second) = osString first ++ osString second := by
  simp [osString, String.toByteArray_append]

/-- The bytes that a text was read from. -/
theorem os_string_from_utf8 {bytes : List UInt8} {value : String}
    (h : String.fromUTF8? ⟨bytes.toArray⟩ = some value) : osString value = bytes := by
  unfold String.fromUTF8? at h
  split at h
  · cases h
    simp [osString, String.fromUTF8]
  · cases h

/-- Every text can be read from its bytes. -/
theorem from_utf8_os_string (value : String) :
    String.fromUTF8? ⟨(osString value).toArray⟩ = some value := by
  have hbytes : (⟨(osString value).toArray⟩ : ByteArray) = value.toByteArray := by
    ext1
    simp [osString]
  rw [hbytes, String.fromUTF8?, dif_pos value.isValidUTF8]
  rfl

/-- A name that ends in a dot and a dotless suffix has that suffix as its extension, provided
something stands before the dot. -/
theorem extension_append {stem suffix : OsString} (hstem : stem ≠ [])
    (hsuffix : suffix ≠ []) (hdot : ∀ byte ∈ suffix, byte ≠ 46) :
    extension (stem ++ 46 :: suffix) = some suffix := by
  have hlong : stem ++ 46 :: suffix ≠ [46, 46] := by
    intro h
    have hlast : (46 : UInt8) ∈ suffix := by
      cases stem with
      | nil => exact absurd rfl hstem
      | cons byte stem =>
          cases stem with
          | nil => simp_all
          | cons _ _ => simp_all
    exact hdot 46 hlast rfl
  have hnodot : ∀ byte ∈ suffix.reverse, (decide (byte ≠ 46)) = true := by
    intro byte hbyte
    simpa using hdot byte (List.mem_reverse.mp hbyte)
  have hlast : (stem ++ 46 :: suffix).reverse.takeWhile (· ≠ 46) = suffix.reverse := by
    rw [List.reverse_append, List.reverse_cons, List.append_assoc,
      List.takeWhile_append_of_pos hnodot]
    simp
  have hrest : ((stem ++ 46 :: suffix).reverse.dropWhile (· ≠ 46)).tail = stem.reverse := by
    rw [List.reverse_append, List.reverse_cons, List.append_assoc,
      List.dropWhile_append_of_pos hnodot]
    simp
  simp only [extension, hlast, hrest, List.reverse_reverse]
  simp [hlong, hstem]

/-- Whether a path starts with a drive, `C:`. -/
def hasDrive (path : OsString) : Bool :=
  path.head?.any (fun byte => (65 ≤ byte && byte ≤ 90) || (97 ≤ byte && byte ≤ 122)) &&
    path.tail.head? == some 58

/-- The components of a relative path of normal components only, or `none` when the path is
empty, rooted or has a prefix, starts with `.` or contains `..`. Repeated and trailing
separators and later `.` components are skipped, as `Path::components` skips them. -/
def normalComponents (separator : UInt8 → Bool) (drives : Bool) (path : OsString) :
    Option (List OsString) :=
  let segments := path.splitOnP separator
  let drive := drives && hasDrive path
  if segments.head? = some [] ∨ segments.head? = some [46] ∨ drive ∨ [46, 46] ∈ segments then none
  else some (segments.filter fun segment => segment ≠ [] ∧ segment ≠ [46])

/-- A node of a directory tree. A symbolic link carries what it resolves to, if anything. -/
inductive Node where
  | file (bytes : List UInt8)
  | directory (entries : List (OsString × Node))
  | symlink (target : Option Node)
  | special

namespace Node

/-- `Path::exists`: links are followed. -/
def present : Option Node → Bool
  | none => false
  | some (.symlink target) => target.isSome
  | some _ => true

/-- `Path::is_dir`: links are followed. -/
def isDir : Option Node → Bool
  | some (.directory _) => true
  | some (.symlink (some (.directory _))) => true
  | _ => false

/-- The node is itself a directory. -/
def isDirectory : Node → Bool
  | .directory _ => true
  | _ => false

/-- The direct entry of this name. -/
def entry (name : OsString) : Node → Option Node
  | .directory entries => (entries.find? fun item => item.1 = name).map Prod.snd
  | _ => none

/-- One entry, at any depth, disappears: a file, a link, a special file or an empty directory. -/
inductive Unlinked : Node → Node → Prop where
  | entry (before after : List (OsString × Node)) (name : OsString) (node : Node) :
      node.isDirectory = false ∨ node = .directory [] →
      Unlinked (.directory (before ++ (name, node) :: after)) (.directory (before ++ after))
  | inside (before after : List (OsString × Node)) (name : OsString) (node node' : Node) :
      Unlinked node node' →
      Unlinked (.directory (before ++ (name, node) :: after))
        (.directory (before ++ (name, node') :: after))

/-- A tree from which something disappears is a directory before and after. -/
theorem Unlinked.isDirectory {node node' : Node} (h : Unlinked node node') :
    node.isDirectory = true ∧ node'.isDirectory = true := by
  cases h <;> exact ⟨rfl, rfl⟩

end Node

end Foundations
