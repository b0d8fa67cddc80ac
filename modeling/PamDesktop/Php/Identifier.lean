import PamDesktop.Foundations.PathText
import PamDesktop.Foundations.Pattern
import PamDesktop.Protocol.Validation

/-!
# Identifiers in PHP and in the host

`Identifier::assert` recognises names with a regular expression, `validate_identifier` with a loop
over characters. `same_identifiers_iff` says for which byte strings the two agree.
-/

namespace PamDesktop.Php

open Foundations Protocol

/-- `[a-z]`. -/
def lowerLetter (byte : UInt8) : Bool := 97 ≤ byte.toNat && byte.toNat ≤ 122

/-- `[a-z0-9._-]`. -/
def lowerIdentifierByte (byte : UInt8) : Bool :=
  lowerLetter byte || (48 ≤ byte.toNat && byte.toNat ≤ 57) || [46, 95, 45].contains byte

/-- `/^[a-z][a-z0-9._-]{0,63}$/i`. -/
def identifierPattern : Pattern :=
  (Pattern.seq .start (.seq (.byte lowerLetter)
    (.seq (Pattern.upTo 63 (.byte lowerIdentifierByte)) .finish))).caseless

/-- `Identifier::assert`: the message of the exception, if there is one. -/
def Identifier.assert (value : List UInt8) (label : String) : Except String Unit :=
  if identifierPattern.pregMatch value then .ok ()
  else
    .error (label ++ " must begin with a letter and contain at most 64 ASCII letters, numbers, " ++
      "dots, dashes, or underscores.")

/-- `validate_identifier` on bytes: the host has read them as UTF-8 before. -/
def hostValidates (value : List UInt8) (label : String) : Except String Unit :=
  match String.fromUTF8? ⟨value.toArray⟩ with
  | none => .error "invalid UTF-8"
  | some text => validateIdentifier text label

/-! ## The language of identifiers -/

/-- A letter. -/
def letter (byte : UInt8) : Bool := lowerLetter byte || (65 ≤ byte.toNat && byte.toNat ≤ 90)

/-- A byte of an identifier after the first. -/
def identifierByte (byte : UInt8) : Bool :=
  letter byte || (48 ≤ byte.toNat && byte.toNat ≤ 57) || [46, 95, 45].contains byte

/-- What both recognisers are meant to accept. -/
def IdentifierBytes (value : List UInt8) : Prop :=
  ∃ first rest, value = first :: rest ∧ letter first = true ∧ rest.length ≤ 63 ∧
    ∀ byte ∈ rest, identifierByte byte = true

theorem lower_letter_iff {byte : UInt8} :
    lowerLetter byte = true ↔ 97 ≤ byte.toNat ∧ byte.toNat ≤ 122 := by
  rw [lowerLetter, Bool.and_eq_true, decide_eq_true_iff, decide_eq_true_iff]

theorem letter_iff {byte : UInt8} : letter byte = true ↔
    (97 ≤ byte.toNat ∧ byte.toNat ≤ 122) ∨ (65 ≤ byte.toNat ∧ byte.toNat ≤ 90) := by
  rw [letter, Bool.or_eq_true, lower_letter_iff, Bool.and_eq_true, decide_eq_true_iff,
    decide_eq_true_iff]

/-- The modifier `i` adds the upper case. -/
theorem lower_letter_caseless (byte : UInt8) :
    (lowerLetter byte || lowerLetter (Pattern.otherCase byte)) = letter byte := by
  rw [Bool.eq_iff_iff, Bool.or_eq_true, lower_letter_iff, lower_letter_iff, letter_iff]
  by_cases hupper : 65 ≤ byte.toNat ∧ byte.toNat ≤ 90
  · rw [Pattern.other_case_upper hupper]
    omega
  · by_cases hlower : 97 ≤ byte.toNat ∧ byte.toNat ≤ 122
    · rw [Pattern.other_case_lower hlower]
      omega
    · rw [Pattern.other_case_same hupper hlower]
      omega

/-- The modifier `i` changes nothing else: only letters have another case. -/
theorem lower_identifier_byte_caseless (byte : UInt8) :
    (lowerIdentifierByte byte || lowerIdentifierByte (Pattern.otherCase byte)) =
      identifierByte byte := by
  have hletter := lower_letter_caseless byte
  by_cases hcase : letter byte = true
  · rw [hcase, Bool.or_eq_true] at hletter
    unfold identifierByte lowerIdentifierByte
    rw [hcase]
    obtain h | h := hletter <;> rw [h] <;> simp
  · have hcase' := letter_iff.not.mp hcase
    rw [Pattern.other_case_same (by omega) (by omega), Bool.or_self]
    have hlower : lowerLetter byte = letter byte := by
      rw [Bool.eq_iff_iff, lower_letter_iff, letter_iff]
      omega
    unfold identifierByte lowerIdentifierByte
    rw [hlower]

/-- PHP accepts an identifier, also with a line feed behind it. -/
theorem assert_iff {value : List UInt8} {label : String} :
    Identifier.assert value label = .ok () ↔
      ∃ name, IdentifierBytes name ∧ (value = name ∨ value = name ++ [10]) := by
  have hpattern : identifierPattern = .seq .start (.seq (.byte letter)
      (.seq (Pattern.upTo 63 (.byte identifierByte)) .finish)) := by
    simp only [identifierPattern, Pattern.caseless, Pattern.caseless_upTo, lower_letter_caseless,
      lower_identifier_byte_caseless]
  have hmatch : identifierPattern.pregMatch value = true ↔
      ∃ name, IdentifierBytes name ∧ (value = name ∨ value = name ++ [10]) := by
    rw [hpattern, Pattern.preg_match_start]
    constructor
    · intro h
      obtain ⟨left, hleft⟩ := h
      obtain ⟨middle, hmiddle, hleft⟩ := Pattern.mem_seq.mp hleft
      obtain ⟨first, hfirst, hvalue⟩ := Pattern.mem_byte.mp hmiddle
      obtain ⟨last, hlast, hleft⟩ := Pattern.mem_seq.mp hleft
      obtain ⟨rest, hrest, hlength, hall⟩ := Pattern.mem_upTo.mp hlast
      obtain ⟨_, hend⟩ := Pattern.mem_finish.mp hleft
      refine ⟨first :: rest, ⟨first, rest, rfl, hfirst, hlength, hall⟩, ?_⟩
      obtain hend | hend := hend
      · refine .inl ?_
        rw [hvalue, hrest, hend, List.append_nil]
      · refine .inr ?_
        rw [hvalue, hrest, hend]
        rfl
    · intro h
      obtain ⟨name, ⟨first, rest, hname, hfirst, hlength, hall⟩, hvalue⟩ := h
      obtain ⟨tail, hvalue, hend⟩ : ∃ tail : List UInt8, value = first :: (rest ++ tail) ∧
          (tail = [] ∨ tail = [10]) := by
        obtain hvalue | hvalue := hvalue
        · exact ⟨[], by rw [hvalue, hname, List.append_nil], .inl rfl⟩
        · exact ⟨[10], by rw [hvalue, hname, List.cons_append], .inr rfl⟩
      refine ⟨tail, Pattern.mem_seq.mpr ⟨rest ++ tail, ?_, ?_⟩⟩
      · exact Pattern.mem_byte.mpr ⟨first, hfirst, hvalue⟩
      · refine Pattern.mem_seq.mpr ⟨tail, ?_, Pattern.mem_finish.mpr ⟨rfl, hend⟩⟩
        exact Pattern.mem_upTo.mpr ⟨rest, rfl, hlength, hall⟩
  rw [← hmatch]
  unfold Identifier.assert
  split
  · rename_i h
    exact iff_of_true rfl h
  · rename_i h
    exact iff_of_false (fun heq => by cases heq) h

/-! ## The host -/

/-- The character of an ASCII byte. -/
def asciiChar (byte : UInt8) : Char := Char.ofNat byte.toNat

/-- The byte of an ASCII character. -/
def asciiByte (c : Char) : UInt8 := UInt8.ofNat c.toNat

theorem char_le_iff {first second : Char} : first ≤ second ↔ first.toNat ≤ second.toNat := by
  rw [Char.le_def, UInt32.le_iff_toNat_le]
  rfl

theorem char_eq_iff {first second : Char} : first = second ↔ first.toNat = second.toNat :=
  ⟨congrArg Char.toNat, fun h => Char.ext (UInt32.toNat_inj.mp h)⟩

theorem ascii_byte_to_nat {c : Char} (h : c.toNat < 128) : (asciiByte c).toNat = c.toNat := by
  rw [asciiByte, UInt8.toNat_ofNat']
  omega

/-- The letters of the host. -/
theorem ascii_alphabetic_iff {c : Char} : isAsciiAlphabetic c = true ↔
    c.toNat < 128 ∧ letter (asciiByte c) = true := by
  have hranges : isAsciiAlphabetic c = true ↔
      (97 ≤ c.toNat ∧ c.toNat ≤ 122) ∨ (65 ≤ c.toNat ∧ c.toNat ≤ 90) := by
    rw [isAsciiAlphabetic, isAsciiLowercase, isAsciiUppercase, Bool.or_eq_true, Bool.and_eq_true,
      Bool.and_eq_true]
    simp only [decide_eq_true_iff, char_le_iff]
    exact Iff.rfl
  rw [hranges, letter_iff]
  constructor
  · intro h
    have hascii : c.toNat < 128 := by omega
    rw [ascii_byte_to_nat hascii]
    exact ⟨hascii, h⟩
  · intro h
    rw [ascii_byte_to_nat h.1] at h
    exact h.2

/-- The characters that the host allows after the first. -/
theorem identifier_char_iff {c : Char} :
    (isAsciiAlphanumeric c || ['.', '_', '-'].contains c) = true ↔
      c.toNat < 128 ∧ identifierByte (asciiByte c) = true := by
  have hdigit : isAsciiDigit c = true ↔ 48 ≤ c.toNat ∧ c.toNat ≤ 57 := by
    rw [isAsciiDigit, Bool.and_eq_true]
    simp only [decide_eq_true_iff, char_le_iff]
    exact Iff.rfl
  have hother : ['.', '_', '-'].contains c = true ↔
      c.toNat = 46 ∨ c.toNat = 95 ∨ c.toNat = 45 := by
    simp only [List.contains_iff_mem, List.mem_cons, List.not_mem_nil, or_false, char_eq_iff]
    exact Iff.rfl
  have hbyte : c.toNat < 128 → ([46, 95, 45].contains (asciiByte c) = true ↔
      c.toNat = 46 ∨ c.toNat = 95 ∨ c.toNat = 45) := by
    intro hascii
    simp only [List.contains_iff_mem, List.mem_cons, List.not_mem_nil, or_false,
      ← UInt8.toNat_inj, ascii_byte_to_nat hascii]
    exact Iff.rfl
  rw [Bool.or_eq_true, isAsciiAlphanumeric, Bool.or_eq_true, ascii_alphabetic_iff, hdigit, hother,
    identifierByte, Bool.or_eq_true, Bool.or_eq_true, Bool.and_eq_true, decide_eq_true_iff,
    decide_eq_true_iff]
  constructor
  · intro h
    have hascii : c.toNat < 128 := by omega
    rw [ascii_byte_to_nat hascii, hbyte hascii]
    refine ⟨hascii, ?_⟩
    obtain (⟨_, h⟩ | h) | h := h
    · exact .inl (.inl h)
    · exact .inl (.inr h)
    · exact .inr h
  · intro h
    obtain ⟨hascii, h⟩ := h
    rw [ascii_byte_to_nat hascii, hbyte hascii] at h
    obtain (h | h) | h := h
    · exact .inl (.inl ⟨hascii, h⟩)
    · exact .inl (.inr h)
    · exact .inr h

theorem ascii_char_to_nat {byte : UInt8} (h : byte.toNat < 128) :
    (asciiChar byte).toNat = byte.toNat := by
  have hvalid : byte.toNat.isValidChar := .inl (by omega)
  rw [asciiChar, Char.ofNat, dif_pos hvalid]
  rfl

theorem ascii_byte_char {byte : UInt8} (h : byte.toNat < 128) :
    asciiByte (asciiChar byte) = byte := by
  rw [← UInt8.toNat_inj, ascii_byte_to_nat (by rw [ascii_char_to_nat h]; exact h),
    ascii_char_to_nat h]

/-- Identifiers are ASCII. -/
theorem identifier_byte_ascii {byte : UInt8} (h : identifierByte byte = true) :
    byte.toNat < 128 := by
  rw [identifierByte, Bool.or_eq_true, Bool.or_eq_true, letter_iff, Bool.and_eq_true,
    decide_eq_true_iff, decide_eq_true_iff] at h
  obtain (h | h) | h := h
  · omega
  · omega
  · simp only [List.contains_iff_mem, List.mem_cons, List.not_mem_nil, or_false] at h
    obtain h | h | h := h <;> rw [h] <;> decide

/-- A text of ASCII characters has one byte for each. -/
theorem os_string_ascii {characters : List Char} (h : ∀ c ∈ characters, c.toNat < 128) :
    osString (String.ofList characters) = characters.map asciiByte := by
  rw [os_string_of_list]
  induction characters with
  | nil => rfl
  | cons c rest ih =>
      rw [List.flatMap_cons, List.map_cons, utf8_encode_ascii (h c List.mem_cons_self),
        ih fun other hother => h other (List.mem_cons_of_mem c hother)]
      rfl

theorem validate_identifier_iff {value label : String} :
    validateIdentifier value label = .ok () ↔ ∃ first rest, value.toList = first :: rest ∧
      isAsciiAlphabetic first = true ∧ value.utf8ByteSize ≤ 64 ∧
      ∀ c ∈ rest, (isAsciiAlphanumeric c || ['.', '_', '-'].contains c) = true := by
  unfold validateIdentifier
  cases value.toList with
  | nil =>
      refine iff_of_false (fun h => by cases h) fun h => ?_
      obtain ⟨first, rest, heq, _⟩ := h
      cases heq
  | cons first rest =>
      dsimp only
      split
      · rename_i hrefused
        refine iff_of_false (fun h => by cases h) fun h => ?_
        obtain ⟨_, _, heq, hfirst, hlength, hall⟩ := h
        cases heq
        rw [hfirst, List.all_eq_true.mpr hall] at hrefused
        simp at hrefused
        omega
      · rename_i haccepted
        simp only [Bool.or_eq_true, Bool.not_eq_true', decide_eq_true_eq, not_or,
          Bool.not_eq_false, Nat.not_lt] at haccepted
        obtain ⟨⟨hfirst, hlength⟩, hall⟩ := haccepted
        exact iff_of_true rfl ⟨first, rest, rfl, hfirst, hlength, List.all_eq_true.mp hall⟩

/-- The host accepts the identifiers. -/
theorem host_validates_iff {value : List UInt8} {label : String} :
    hostValidates value label = .ok () ↔ IdentifierBytes value := by
  constructor
  · intro h
    unfold hostValidates at h
    split at h
    · cases h
    · rename_i text htext
      obtain ⟨first, rest, hlist, hfirst, hlength, hall⟩ := validate_identifier_iff.mp h
      have hall := fun c hc => identifier_char_iff.mp (hall c hc)
      have hletter := ascii_alphabetic_iff.mp hfirst
      have hascii : ∀ c ∈ first :: rest, c.toNat < 128 := by
        intro c hc
        obtain heq | hc := List.mem_cons.mp hc
        · rw [heq]
          exact hletter.1
        · exact (hall c hc).1
      have hbytes : value = asciiByte first :: rest.map asciiByte := by
        rw [← os_string_from_utf8 htext, ← String.ofList_toList (s := text), hlist,
          os_string_ascii hascii, List.map_cons]
      refine ⟨asciiByte first, rest.map asciiByte, hbytes, hletter.2, ?_, ?_⟩
      · have hsize : value.length = text.utf8ByteSize := by
          rw [← os_string_from_utf8 htext]
          rfl
        rw [hbytes, List.length_cons] at hsize
        omega
      · intro byte hbyte
        obtain ⟨c, hc, heq⟩ := List.mem_map.mp hbyte
        rw [← heq]
        exact (hall c hc).2
  · intro h
    obtain ⟨first, rest, hvalue, hfirst, hlength, hall⟩ := h
    have hidentifier : identifierByte first = true := by
      rw [identifierByte, hfirst]
      rfl
    have hascii : ∀ byte ∈ value, byte.toNat < 128 := by
      intro byte hbyte
      rw [hvalue] at hbyte
      obtain heq | hbyte := List.mem_cons.mp hbyte
      · rw [heq]
        exact identifier_byte_ascii hidentifier
      · exact identifier_byte_ascii (hall byte hbyte)
    have hchars : ∀ c ∈ value.map asciiChar, c.toNat < 128 := by
      intro c hc
      obtain ⟨byte, hbyte, heq⟩ := List.mem_map.mp hc
      rw [← heq, ascii_char_to_nat (hascii byte hbyte)]
      exact hascii byte hbyte
    have hbytes : osString (String.ofList (value.map asciiChar)) = value := by
      rw [os_string_ascii hchars, List.map_map]
      refine (List.map_congr_left fun byte hbyte => ?_).trans (List.map_id value)
      exact ascii_byte_char (hascii byte hbyte)
    have htext := from_utf8_os_string (String.ofList (value.map asciiChar))
    rw [hbytes] at htext
    unfold hostValidates
    rw [htext]
    refine validate_identifier_iff.mpr
      ⟨asciiChar first, rest.map asciiChar, ?_, ?_, ?_, fun c hc => ?_⟩
    · rw [String.toList_ofList, hvalue, List.map_cons]
    · have hsmall := hascii first (hvalue ▸ List.mem_cons_self)
      rw [ascii_alphabetic_iff, ascii_char_to_nat hsmall, ascii_byte_char hsmall]
      exact ⟨hsmall, hfirst⟩
    · have hsize : (String.ofList (value.map asciiChar)).utf8ByteSize = value.length := by
        conv_rhs => rw [← hbytes]
        rfl
      rw [hsize, hvalue, List.length_cons]
      omega
    · obtain ⟨byte, hbyte, heq⟩ := List.mem_map.mp hc
      have hsmall := identifier_byte_ascii (hall byte hbyte)
      rw [← heq, identifier_char_iff, ascii_char_to_nat hsmall, ascii_byte_char hsmall]
      exact ⟨hsmall, hall byte hbyte⟩

/-- No identifier ends in a line feed. -/
theorem identifier_no_line_feed {name : List UInt8} : ¬ IdentifierBytes (name ++ [10]) := by
  intro h
  obtain ⟨first, rest, hvalue, hfirst, _, hall⟩ := h
  cases name with
  | nil =>
      obtain ⟨heq, _⟩ := List.cons.inj hvalue
      rw [← heq] at hfirst
      cases hfirst
  | cons byte name =>
      obtain ⟨_, heq⟩ := List.cons.inj hvalue
      have hfeed := hall 10 (heq ▸ List.mem_append_right name List.mem_cons_self)
      cases hfeed

/-- PHP and the host agree on a byte string exactly if it is no identifier with a line feed
behind it. -/
theorem same_identifiers_iff (value : List UInt8) (label label' : String) :
    (Identifier.assert value label = .ok () ↔ hostValidates value label' = .ok ()) ↔
      ¬ ∃ name, value = name ++ [10] ∧ hostValidates name label' = .ok () := by
  rw [assert_iff, host_validates_iff]
  constructor
  · intro hsame h
    obtain ⟨name, hvalue, hname⟩ := h
    have hidentifier := hsame.mp ⟨name, host_validates_iff.mp hname, .inr hvalue⟩
    rw [hvalue] at hidentifier
    exact identifier_no_line_feed hidentifier
  · intro hplain
    constructor
    · intro h
      obtain ⟨name, hname, hvalue | hvalue⟩ := h
      · rw [hvalue]
        exact hname
      · exact absurd ⟨name, hvalue, host_validates_iff.mpr hname⟩ hplain
    · intro h
      exact ⟨value, h, .inl rfl⟩

/-- A window called `main` with a line feed is registered in PHP and refused by the host. -/
theorem line_feed_disagrees :
    Identifier.assert (osString "main\n") "The window identifier" = .ok () ∧
      hostValidates (osString "main\n") "window" ≠ .ok () := by
  decide +kernel

end PamDesktop.Php
