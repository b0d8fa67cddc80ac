import Mathlib.Data.List.DropRight
import PamDesktop.Php.Identifier
import PamDesktop.Protocol.Accepted

/-!
# Checks of texts in PHP

The functions of PHP that the builders check texts with, on bytes, and what their checks have in
common with those of the host. `strict_name_iff` and `printable_trim` say that the host accepts
less.
-/

namespace PamDesktop.Php

open Foundations Protocol

/-! ## The functions of PHP -/

/-- The bytes that `trim` removes. -/
def isTrimmed (byte : UInt8) : Bool := [32, 9, 10, 13, 0, 11].contains byte

/-- `trim`. -/
def trim (value : List UInt8) : List UInt8 :=
  (value.dropWhile isTrimmed).rdropWhile isTrimmed

/-- `strtolower`, for a byte. -/
def lowerByte (byte : UInt8) : UInt8 :=
  if 65 ≤ byte.toNat ∧ byte.toNat ≤ 90 then byte + 32 else byte

/-- The characters that `\s` matches under the modifier `u`. -/
def isPatternSpace (c : Char) : Bool :=
  (9 ≤ c.toNat && c.toNat ≤ 13) || (0x2000 ≤ c.toNat && c.toNat ≤ 0x200A) ||
    [0x20, 0x85, 0xA0, 0x1680, 0x180E, 0x2028, 0x2029, 0x202F, 0x205F, 0x3000].contains c.toNat

/-- `preg_match('/\s/u', …) === 1`: a subject that is not UTF-8 is an error, and no match. -/
def matchesSpace (value : List UInt8) : Bool :=
  match String.fromUTF8? ⟨value.toArray⟩ with
  | some text => text.toList.any isPatternSpace
  | none => false

/-- `Identifier::assert`, with the message as PHP has it. -/
def assertIdentifier (value : List UInt8) (label : String) : Except (List UInt8) Unit :=
  (Identifier.assert value label).mapError osString

/-- The check of a label. -/
def assertLabel (value : List UInt8) (maximumBytes : Nat) (message : String) :
    Except (List UInt8) Unit :=
  if trim value = [] ∨ maximumBytes < value.length then .error (osString message) else .ok ()

/-! ## Characters and bytes -/

/-- The bytes of some characters. -/
def encode (text : List Char) : List UInt8 := text.flatMap String.utf8EncodeChar

theorem os_string_encode (text : String) : osString text = encode text.toList := by
  rw [encode, ← os_string_of_list, String.ofList_toList]

theorem encode_length (text : List Char) :
    (encode text).length = (String.ofList text).utf8ByteSize := by
  rw [encode, ← os_string_of_list]
  rfl

/-- No character is without bytes. -/
theorem encode_char_cons (c : Char) : ∃ byte rest, String.utf8EncodeChar c = byte :: rest := by
  refine List.exists_cons_of_ne_nil fun hempty => ?_
  have hlength := String.length_utf8EncodeChar c
  have hpositive := c.utf8Size_pos
  rw [hempty, List.length_nil] at hlength
  omega

theorem encode_empty {text : List Char} : encode text = [] ↔ text = [] := by
  cases text with
  | nil => exact iff_of_true rfl rfl
  | cons c rest =>
      obtain ⟨byte, more, hencoded⟩ := encode_char_cons c
      refine iff_of_false (fun h => ?_) nofun
      rw [encode, List.flatMap_cons, hencoded] at h
      cases h

/-- Lower case is the same for bytes and for characters. -/
theorem encode_lowercase (text : List Char) :
    (encode text).map lowerByte = encode (text.map toAsciiLowercase) := by
  induction text with
  | nil => rfl
  | cons c rest ih =>
      rw [encode, List.flatMap_cons, List.map_append, List.map_cons, encode, List.flatMap_cons]
      refine congrArg₂ _ ?_ ih
      have hupper : isAsciiUppercase c = true ↔ 65 ≤ c.toNat ∧ c.toNat ≤ 90 := by
        rw [isAsciiUppercase, Bool.and_eq_true, decide_eq_true_iff, decide_eq_true_iff,
          char_le_iff, char_le_iff]
        exact Iff.rfl
      unfold toAsciiLowercase
      by_cases hascii : c.toNat < 128
      · have hbyte : (UInt8.ofNat c.toNat).toNat = c.toNat := by
          rw [UInt8.toNat_ofNat']
          omega
        rw [utf8_encode_ascii hascii, List.map_singleton, lowerByte, hbyte]
        by_cases hc : isAsciiUppercase c = true
        · have hrange := hupper.mp hc
          have hlower : (Char.ofNat (c.toNat + 32)).toNat = c.toNat + 32 := by
            rw [Char.ofNat, dif_pos (.inl (by omega))]
            rfl
          rw [if_pos hrange, if_pos hc, utf8_encode_ascii (by omega), hlower]
          refine congrArg (fun byte => [byte]) (UInt8.toNat_inj.mp ?_)
          rw [UInt8.toNat_add, hbyte, UInt8.toNat_ofNat']
          rfl
        · rw [if_neg (hupper.not.mp hc), if_neg hc, utf8_encode_ascii hascii]
      · have hhigh := utf8_encode_high (Nat.not_lt.mp hascii)
        rw [if_neg fun hc => by have := hupper.mp hc; omega]
        refine (List.map_congr_left fun byte hbyte => ?_).trans (List.map_id _)
        have hlarge := hhigh byte hbyte
        rw [lowerByte, if_neg (by omega)]
        rfl

/-- A text of such bytes has such characters. -/
theorem visible_characters {text : String}
    (h : ∀ byte ∈ osString text, 33 ≤ byte.toNat ∧ byte.toNat < 127) :
    ∀ c ∈ text.toList, 33 ≤ c.toNat ∧ c.toNat < 127 := by
  intro c hc
  have hbytes : ∀ byte ∈ String.utf8EncodeChar c, 33 ≤ byte.toNat ∧ byte.toNat < 127 := by
    intro byte hbyte
    rw [os_string_encode] at h
    exact h byte (List.mem_flatMap.mpr ⟨c, hc, hbyte⟩)
  by_cases hascii : c.toNat < 128
  · have hbyte := hbytes (UInt8.ofNat c.toNat) (by
      rw [utf8_encode_ascii hascii]
      exact List.mem_cons_self)
    rw [UInt8.toNat_ofNat'] at hbyte
    omega
  · have hhigh := utf8_encode_high (Nat.not_lt.mp hascii)
    obtain ⟨byte, rest, hencoded⟩ := encode_char_cons c
    have hlarge := hhigh byte (hencoded ▸ List.mem_cons_self)
    have hsmall := hbytes byte (hencoded ▸ List.mem_cons_self)
    omega

/-- Visible ASCII characters are no white space. -/
theorem visible_not_space {c : Char} (h : 33 ≤ c.toNat ∧ c.toNat < 127) :
    isPatternSpace c = false ∧ isWhitespace c = false := by
  constructor
  · rw [isPatternSpace, Bool.or_eq_false_iff, Bool.or_eq_false_iff]
    refine ⟨⟨?_, ?_⟩, ?_⟩
    · simp
      omega
    · simp
      omega
    · simp
      omega
  · rw [isWhitespace, Bool.or_eq_false_iff, Bool.or_eq_false_iff]
    refine ⟨⟨?_, ?_⟩, ?_⟩
    · simp
      omega
    · simp
      omega
    · simp
      omega

/-! ## Names and labels -/

/-- The bytes of a printable text. -/
def PrintableBytes (value : List UInt8) : Prop := ∃ text, osString text = value ∧ Printable text

theorem printable_iff {text : String} : PrintableBytes (osString text) ↔ Printable text := by
  constructor
  · intro h
    obtain ⟨other, hother, hprintable⟩ := h
    exact os_string_injective hother ▸ hprintable
  · exact fun h => ⟨text, rfl, h⟩

theorem trim_empty_iff {value : List UInt8} :
    trim value = [] ↔ ∀ byte ∈ value, isTrimmed byte = true := by
  rw [trim, List.rdropWhile_eq_nil_iff, ← List.dropWhile_eq_nil_iff, List.dropWhile_idempotent,
    List.dropWhile_eq_nil_iff]

/-- What is printable is not blank in PHP. -/
theorem printable_trim {value : List UInt8} (h : PrintableBytes value) : trim value ≠ [] := by
  obtain ⟨text, rfl, ⟨c, hc, hblank⟩, hcontrol⟩ := h
  rw [ne_eq, trim_empty_iff]
  intro hall
  obtain ⟨byte, rest, hencoded⟩ := encode_char_cons c
  have hbyte : byte ∈ String.utf8EncodeChar c := hencoded ▸ List.mem_cons_self
  have htrimmed := hall byte (by
    rw [os_string_encode]
    exact List.mem_flatMap.mpr ⟨c, hc, hbyte⟩)
  have hcontrol := hcontrol c hc
  have hvalue : byte = 32 ∨ byte = 9 ∨ byte = 10 ∨ byte = 13 ∨ byte = 0 ∨ byte = 11 := by
    simpa [isTrimmed] using htrimmed
  have hsmall : byte.toNat < 33 := by
    obtain rfl | rfl | rfl | rfl | rfl | rfl := hvalue <;> decide
  by_cases hascii : c.toNat < 128
  · rw [utf8_encode_ascii hascii, List.mem_singleton] at hbyte
    have hnat : byte.toNat = c.toNat := by
      rw [hbyte, UInt8.toNat_ofNat']
      omega
    by_cases hspace : c.toNat = 32
    · rw [isWhitespace, hspace] at hblank
      cases hblank
    · rw [isControl, Bool.or_eq_false_iff, decide_eq_false_iff_not] at hcontrol
      omega
  · have hlarge := utf8_encode_high (Nat.not_lt.mp hascii) byte hbyte
    omega

theorem assert_label_iff (value : List UInt8) (maximumBytes : Nat) (message : String) :
    assertLabel value maximumBytes message = .ok () ↔
      trim value ≠ [] ∧ value.length ≤ maximumBytes := by
  unfold assertLabel
  split
  · rename_i h
    exact iff_of_false nofun fun hok => h.elim hok.1 fun hlong => by omega
  · rename_i h
    rw [not_or, Nat.not_lt] at h
    exact iff_of_true rfl h

theorem assert_identifier_iff (value : List UInt8) (label : String) :
    assertIdentifier value label = .ok () ↔ ∃ identifier, IdentifierBytes identifier ∧
      (value = identifier ∨ value = identifier ++ [10]) := by
  have hassert : Identifier.assert value label = .ok () ↔ _ := assert_iff
  rw [← hassert, assertIdentifier]
  cases Identifier.assert value label with
  | ok => exact iff_of_true rfl rfl
  | error message => exact iff_of_false nofun nofun

theorem identifier_text {value : List UInt8} (h : IdentifierBytes value) :
    ∃ text, osString text = value := by
  have hhost : hostValidates value "" = .ok () := host_validates_iff.mpr h
  unfold hostValidates at hhost
  split at hhost
  · cases hhost
  · rename_i text htext
    exact ⟨text, os_string_from_utf8 htext⟩

/-- The identifiers of the host are those that are no more than identifiers. -/
theorem validate_identifier_bytes {value label : String} :
    validateIdentifier value label = .ok () ↔ IdentifierBytes (osString value) := by
  have hhost : hostValidates (osString value) label = .ok () ↔ _ := host_validates_iff
  rw [← hhost, hostValidates, from_utf8_os_string]

/-- An identifier that PHP accepts and that does not end in a line feed is one for the host. -/
theorem strict_name_iff {name : List UInt8} : IdentifierBytes name ↔
    (∃ identifier, IdentifierBytes identifier ∧
      (name = identifier ∨ name = identifier ++ [10])) ∧ name.getLast? ≠ some 10 := by
  constructor
  · intro h
    refine ⟨⟨name, h, .inl rfl⟩, fun hlast => ?_⟩
    obtain ⟨front, rfl⟩ := List.getLast?_eq_some_iff.mp hlast
    exact identifier_no_line_feed h
  · intro h
    obtain ⟨⟨identifier, hidentifier, rfl | rfl⟩, hlast⟩ := h
    · exact hidentifier
    · exact absurd List.getLast?_concat hlast

theorem os_string_empty {text : String} : osString text = [] ↔ text = "" :=
  ⟨fun h => os_string_injective h, fun h => h ▸ rfl⟩

end PamDesktop.Php
