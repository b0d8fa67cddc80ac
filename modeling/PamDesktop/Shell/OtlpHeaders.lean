import Mathlib.Data.List.DropRight
import PamDesktop.Foundations.LossyText
import PamDesktop.Protocol.Bootstrap

/-!
# Headers of the OTLP exporter

`percent_decode` and `parse_headers`, which read the headers that the environment configures.
`u8::from_str_radix` takes a sign, so that an escape can be written with one:
`percent_decode_exact_iff` says for which texts the decoder agrees with percent-encoding.
-/

namespace PamDesktop.Shell.Otlp

open Foundations Protocol

/-! ## Decoding -/

/-- `char::to_digit` with radix 16. -/
def hexDigit (byte : UInt8) : Option Nat :=
  if 48 ≤ byte.toNat ∧ byte.toNat ≤ 57 then some (byte.toNat - 48)
  else if 65 ≤ byte.toNat ∧ byte.toNat ≤ 70 then some (byte.toNat - 55)
  else if 97 ≤ byte.toNat ∧ byte.toNat ≤ 102 then some (byte.toNat - 87)
  else none

/-- The digits of a number that fits in a byte. -/
def readDigits (value : Nat) : List UInt8 → Option Nat
  | [] => some value
  | byte :: rest => do
      let digit ← hexDigit byte
      if value * 16 + digit ≤ 255 then readDigits (value * 16 + digit) rest else none

/-- `u8::from_str_radix` with radix 16: a plus sign may stand before the digits. -/
def fromStrRadix : List UInt8 → Option Nat
  | [] | [43] | [45] => none
  | 43 :: digits => readDigits 0 digits
  | digits => readDigits 0 digits

def invalidEncoding : String := "Desktop OTLP header has invalid percent encoding"

/-- The two bytes behind a percent sign. -/
def decodeEscape (first second : UInt8) : Except String UInt8 :=
  match String.fromUTF8? ⟨[first, second].toArray⟩ with
  | none => .error invalidEncoding
  | some encoded =>
      match fromStrRadix (osString encoded) with
      | none => .error invalidEncoding
      | some value => .ok (UInt8.ofNat value)

/-- The loop of `percent_decode`. -/
def decodeBytes : List UInt8 → Except String (List UInt8)
  | [] => .ok []
  | byte :: rest =>
      if byte = 37 then
        match rest with
        | first :: second :: rest => do
            let value ← decodeEscape first second
            let output ← decodeBytes rest
            return value :: output
        | _ => .error invalidEncoding
      else do
        let output ← decodeBytes rest
        return byte :: output

def percentDecode (value : String) : Except String String := do
  let output ← decodeBytes (osString value)
  match String.fromUTF8? ⟨output.toArray⟩ with
  | some text => .ok text
  | none => .error "Desktop OTLP header is not valid UTF-8"

/-- `str::trim`. -/
def trim (text : List Char) : List Char := (text.dropWhile isWhitespace).rdropWhile isWhitespace

/-- The characters of a name; a byte that is no ASCII is of no such character. -/
def nameChar (c : Char) : Bool := isAsciiAlphanumeric c || c = '-' || c = '_'

/-- One entry of `parse_headers`. -/
def parseEntry (entry : List Char) : Except String (String × String) :=
  match entry.dropWhile (· ≠ '=') with
  | [] => .error "Desktop OTLP headers must use key=value entries"
  | _ :: value => do
      let name := entry.takeWhile (· ≠ '=')
      refuseIf (name.isEmpty || !name.all nameChar) "Desktop OTLP header name is invalid"
      let value ← percentDecode (String.ofList value)
      refuseIf (value.toList.any fun c => c = '\r' || c = '\n')
        "Desktop OTLP header value is invalid"
      return (String.ofList name, value)

/-- `collect`: the first error is the result. -/
def parseEntries : List (List Char) → Except String (List (String × String))
  | [] => .ok []
  | entry :: rest => do
      let header ← parseEntry entry
      let headers ← parseEntries rest
      return header :: headers

def parseHeaders (raw : String) : Except String (List (String × String)) :=
  parseEntries (((raw.toList.splitOn ',').map trim).filter (· ≠ []))

/-! ## Percent-encoding -/

/-- Every percent sign is followed by two hexadecimal digits. -/
def WellEscaped (bytes : List UInt8) : Prop :=
  ∀ before rest, bytes = before ++ 37 :: rest →
    ∃ first second after, rest = first :: second :: after ∧
      hexDigit first ≠ none ∧ hexDigit second ≠ none

/-- The bytes with every escape replaced by its byte. -/
def unescape : List UInt8 → List UInt8
  | 37 :: first :: second :: rest =>
      UInt8.ofNat ((hexDigit first).getD 0 * 16 + (hexDigit second).getD 0) :: unescape rest
  | byte :: rest => byte :: unescape rest
  | [] => []

/-- The text is what the bytes are a percent-encoding of. -/
def Encodes (bytes : List UInt8) (text : String) : Prop :=
  WellEscaped bytes ∧ osString text = unescape bytes

/-- A percent sign is followed by a plus sign and a hexadecimal digit. -/
def SignedEscape (bytes : List UInt8) : Prop :=
  ∃ before digit after, bytes = before ++ 37 :: 43 :: digit :: after ∧ hexDigit digit ≠ none

/-- The bytes behind another one, with a zero for the plus sign of each such escape. -/
def unsignedFrom (before : UInt8) : List UInt8 → List UInt8
  | [] => []
  | byte :: rest =>
      (if before = 37 ∧ byte = 43 ∧ ∃ digit ∈ rest.head?, hexDigit digit ≠ none then 48
        else byte) :: unsignedFrom byte rest

/-- The same of all bytes. -/
def unsigned (bytes : List UInt8) : List UInt8 := unsignedFrom 0 bytes

/-- An upper case digit. -/
def escapeDigit (value : Nat) : Char := "0123456789ABCDEF".toList.getD value '0'

/-- The escape of a byte. -/
def escapeByte (byte : UInt8) : List Char :=
  ['%', escapeDigit (byte.toNat / 16), escapeDigit (byte.toNat % 16)]

/-- A character, percent-encoded if it is not to be kept; a percent sign never is. -/
def encodeChar (keep : Char → Bool) (c : Char) : List Char :=
  if keep c && c ≠ '%' then [c] else (String.utf8EncodeChar c).flatMap escapeByte

/-- Percent-encoding of a text. -/
def percentEncode (keep : Char → Bool) (text : String) : String :=
  String.ofList (text.toList.flatMap (encodeChar keep))

/-! ## Escapes -/

theorem hex_not_mark {byte : UInt8} (h : hexDigit byte ≠ none) : byte ≠ 37 ∧ byte ≠ 43 := by
  constructor
  · rintro rfl
    exact h (by decide)
  · rintro rfl
    exact h (by decide)

/-- Only a percent sign before them makes a difference. -/
theorem unsigned_from {before : UInt8} (h : before ≠ 37) (rest : List UInt8) :
    unsignedFrom before rest = unsigned rest := by
  cases rest with
  | nil => rfl
  | cons byte rest =>
      have hzero : ¬(0 : UInt8) = 37 := by decide
      rw [unsigned, unsignedFrom, unsignedFrom, if_neg fun hsigned => h hsigned.1,
        if_neg fun hsigned => hzero hsigned.1]

theorem unsigned_cons (byte : UInt8) (rest : List UInt8) :
    unsigned (byte :: rest) = byte :: unsignedFrom byte rest := by
  have hzero : ¬(0 : UInt8) = 37 := by decide
  rw [unsigned, unsignedFrom, if_neg fun hsigned => hzero hsigned.1]

theorem unsigned_plain {byte : UInt8} (h : byte ≠ 37) (rest : List UInt8) :
    unsigned (byte :: rest) = byte :: unsigned rest := by
  rw [unsigned_cons, unsigned_from h]

theorem unsigned_signed {digit : UInt8} (h : hexDigit digit ≠ none) (rest : List UInt8) :
    unsigned (37 :: 43 :: digit :: rest) = 37 :: 48 :: digit :: unsigned rest := by
  have hplus : ¬(43 : UInt8) = 37 := by decide
  rw [unsigned_cons, unsignedFrom, if_pos ⟨rfl, rfl, digit, rfl, h⟩, unsigned_from hplus,
    unsigned_plain (hex_not_mark h).1]

/-- A percent sign without a sign behind it stays. -/
theorem unsigned_escape {rest : List UInt8}
    (h : ∀ digit after, rest = 43 :: digit :: after → hexDigit digit = none) :
    unsigned (37 :: rest) = 37 :: unsigned rest := by
  rw [unsigned_cons]
  congr 1
  cases rest with
  | nil => rfl
  | cons byte rest =>
      rw [unsignedFrom, if_neg, unsigned_cons]
      rintro ⟨-, rfl, digit, hdigit, hhex⟩
      obtain ⟨after, rfl⟩ : ∃ after, rest = digit :: after := by
        cases rest with
        | nil => cases hdigit
        | cons first after =>
            cases hdigit
            exact ⟨after, rfl⟩
      exact hhex (h digit after rfl)

theorem well_escaped_nil : WellEscaped [] := by
  intro before rest h
  cases before <;> cases h

theorem well_escaped_plain {byte : UInt8} (hbyte : byte ≠ 37) (rest : List UInt8) :
    WellEscaped (byte :: rest) ↔ WellEscaped rest := by
  constructor
  · intro h before after heq
    exact h (byte :: before) after (by rw [heq, List.cons_append])
  · intro h before after heq
    cases before with
    | nil => exact absurd (List.cons.inj heq).1 hbyte
    | cons head before => exact h before after (List.cons.inj heq).2

/-- What follows a percent sign that is escaped well. -/
theorem WellEscaped.escape {rest : List UInt8} (h : WellEscaped (37 :: rest)) :
    ∃ first second after, rest = first :: second :: after ∧ hexDigit first ≠ none ∧
      hexDigit second ≠ none := h [] rest rfl

theorem well_escaped_escape {first second : UInt8} (hfirst : hexDigit first ≠ none)
    (hsecond : hexDigit second ≠ none) (rest : List UInt8) :
    WellEscaped (37 :: first :: second :: rest) ↔ WellEscaped rest := by
  constructor
  · intro h before after heq
    exact h (37 :: first :: second :: before) after (by rw [heq]; rfl)
  · intro h before after heq
    cases before with
    | nil => exact ⟨first, second, rest, (List.cons.inj heq).2.symm, hfirst, hsecond⟩
    | cons head before =>
        have hinner := ((well_escaped_plain (hex_not_mark hfirst).1 (second :: rest)).mpr
          ((well_escaped_plain (hex_not_mark hsecond).1 rest).mpr h))
        exact hinner before after (List.cons.inj heq).2

/-! ## What the decoder accepts -/

/-- Bytes below 128 are a text. -/
theorem from_utf8_ascii {bytes : List UInt8} (h : ∀ byte ∈ bytes, byte.toNat < 128) :
    ∃ text, String.fromUTF8? ⟨bytes.toArray⟩ = some text ∧ osString text = bytes := by
  refine ⟨String.ofList (bytes.map fun byte => Char.ofNat byte.toNat), ?_⟩
  have hbytes : osString (String.ofList (bytes.map fun byte => Char.ofNat byte.toNat)) =
      bytes := by
    rw [os_string_of_list, List.flatMap_map]
    induction bytes with
    | nil => rfl
    | cons byte rest ih =>
        have hbyte := h byte List.mem_cons_self
        have hchar : (Char.ofNat byte.toNat).toNat = byte.toNat := by
          rw [Char.ofNat, dif_pos (.inl (by omega))]
          rfl
        rw [List.flatMap_cons, utf8_encode_ascii (by omega), hchar, UInt8.ofNat_toNat,
          ih fun other hother => h other (List.mem_cons_of_mem _ hother)]
        rfl
  refine ⟨?_, hbytes⟩
  have hread := from_utf8_os_string (String.ofList (bytes.map fun byte => Char.ofNat byte.toNat))
  rw [hbytes] at hread
  exact hread

theorem hex_digit_lt {byte : UInt8} {value : Nat} (h : hexDigit byte = some value) :
    byte.toNat < 128 ∧ value < 16 := by
  unfold hexDigit at h
  split at h
  · cases h
    omega
  · split at h
    · cases h
      omega
    · split at h
      · cases h
        omega
      · cases h

/-- The number behind a sign, or without one. -/
theorem from_str_radix_pair (first second : UInt8) :
    fromStrRadix [first, second] =
      (if first = 43 then readDigits 0 [second] else readDigits 0 [first, second]) := by
  by_cases hfirst : first = 43
  · subst hfirst
    rfl
  · rw [if_neg hfirst]
    unfold fromStrRadix
    split
    · rename_i h
      cases h
    · rename_i h
      cases h
    · rename_i h
      cases h
    · rename_i h
      exact absurd (List.cons.inj h).1 hfirst
    · rfl

theorem read_digits_two {first second : UInt8} {high low : Nat}
    (hfirst : hexDigit first = some high) (hsecond : hexDigit second = some low) :
    readDigits 0 [first, second] = some (high * 16 + low) := by
  have hhigh := (hex_digit_lt hfirst).2
  have hlow := (hex_digit_lt hsecond).2
  have hone : 0 * 16 + high ≤ 255 := by omega
  have htwo : high * 16 + low ≤ 255 := by omega
  simp [readDigits, hfirst, hsecond, htwo, show high ≤ 255 by omega]

theorem read_digits_one {digit : UInt8} {value : Nat} (h : hexDigit digit = some value) :
    readDigits 0 [digit] = some value := by
  have hvalue := (hex_digit_lt h).2
  simp [readDigits, h, show value ≤ 255 by omega]

/-- The digit that a plus sign stands for. -/
def unsignedByte (byte : UInt8) : UInt8 := if byte = 43 then 48 else byte

theorem decode_escape_hex {first second : UInt8} {high low : Nat}
    (hfirst : hexDigit (unsignedByte first) = some high) (hsecond : hexDigit second = some low) :
    decodeEscape first second = .ok (UInt8.ofNat (high * 16 + low)) := by
  have hascii : first.toNat < 128 := by
    by_cases hplus : first = 43
    · subst hplus
      decide
    · rw [unsignedByte, if_neg hplus] at hfirst
      exact (hex_digit_lt hfirst).1
  have hboth : ∀ byte ∈ [first, second], byte.toNat < 128 := by
    simp [hascii, (hex_digit_lt hsecond).1]
  obtain ⟨text, htext, hbytes⟩ := from_utf8_ascii hboth
  have hvalue : fromStrRadix [first, second] = some (high * 16 + low) := by
    rw [from_str_radix_pair]
    by_cases hplus : first = 43
    · subst hplus
      cases show some 0 = some high from hfirst
      rw [if_pos rfl, read_digits_one hsecond, Nat.zero_mul, Nat.zero_add]
    · rw [unsignedByte, if_neg hplus] at hfirst
      rw [if_neg hplus, read_digits_two hfirst hsecond]
  simp only [decodeEscape, htext, hbytes, hvalue]

theorem decode_escape_other {first second : UInt8}
    (h : hexDigit (unsignedByte first) = none ∨ hexDigit second = none) :
    decodeEscape first second = .error invalidEncoding := by
  have hvalue : fromStrRadix [first, second] = none := by
    rw [from_str_radix_pair]
    by_cases hplus : first = 43
    · subst hplus
      rcases h with h | h
      · cases h
      · simp [readDigits, h]
    · rw [unsignedByte, if_neg hplus] at h
      rcases h with h | h
      · simp [hplus, readDigits, h]
      · simp [hplus, readDigits, h]
  cases htext : String.fromUTF8? ⟨[first, second].toArray⟩ with
  | none => simp only [decodeEscape, htext]
  | some text => simp only [decodeEscape, htext, os_string_from_utf8 htext, hvalue]

/-- An escape that the decoder reads is one of the same digits without the sign. -/
theorem unsigned_read {first second : UInt8} (hfirst : hexDigit (unsignedByte first) ≠ none)
    (hsecond : hexDigit second ≠ none) (rest : List UInt8) :
    unsigned (37 :: first :: second :: rest) =
      37 :: unsignedByte first :: second :: unsigned rest := by
  by_cases hplus : first = 43
  · subst hplus
    exact unsigned_signed hsecond rest
  · rw [unsignedByte, if_neg hplus] at hfirst ⊢
    rw [unsigned_escape, unsigned_plain (hex_not_mark hfirst).1,
      unsigned_plain (hex_not_mark hsecond).1]
    intro digit after h
    exact absurd (List.cons.inj h).1 hplus

/-- What it does not read is no escape without the sign either. -/
theorem unsigned_unread {first second : UInt8}
    (h : hexDigit (unsignedByte first) = none ∨ hexDigit second = none) (rest : List UInt8) :
    ¬WellEscaped (unsigned (37 :: first :: second :: rest)) := by
  intro hwell
  have hplain : unsigned (37 :: first :: second :: rest) =
      37 :: first :: unsignedFrom first (second :: rest) := by
    rw [unsigned_escape, unsigned_cons]
    intro digit after heq
    obtain ⟨rfl, hrest⟩ := List.cons.inj heq
    obtain ⟨rfl, -⟩ := List.cons.inj hrest
    rcases h with h | h
    · cases h
    · exact h
  rw [hplain] at hwell
  obtain ⟨one, two, after, heq, hone, htwo⟩ := hwell.escape
  obtain ⟨rfl, hrest⟩ := List.cons.inj heq
  -- a digit is no percent sign, so what follows it is not changed
  rw [unsigned_from (hex_not_mark hone).1, unsigned_cons] at hrest
  obtain ⟨rfl, -⟩ := List.cons.inj hrest
  rw [unsignedByte, if_neg (hex_not_mark hone).2] at h
  rcases h with h | h
  · exact hone h
  · exact htwo h

theorem decode_bytes_plain {byte : UInt8} (h : byte ≠ 37) (rest out : List UInt8) :
    decodeBytes (byte :: rest) = .ok out ↔
      ∃ tail, decodeBytes rest = .ok tail ∧ out = byte :: tail := by
  rw [decodeBytes.eq_def]
  simp only [if_neg h]
  cases hrest : decodeBytes rest with
  | error message => simp [bind, Except.bind]
  | ok tail => simp [bind, Except.bind, pure, Except.pure, eq_comm]

theorem decode_bytes_escape (first second : UInt8) (rest out : List UInt8) :
    decodeBytes (37 :: first :: second :: rest) = .ok out ↔
      ∃ value tail, decodeEscape first second = .ok value ∧ decodeBytes rest = .ok tail ∧
        out = value :: tail := by
  rw [decodeBytes, if_pos rfl]
  cases hvalue : decodeEscape first second with
  | error message => simp [bind, Except.bind]
  | ok value =>
      cases hrest : decodeBytes rest with
      | error message => simp [bind, Except.bind]
      | ok tail => simp [bind, Except.bind, pure, Except.pure, eq_comm]

theorem unescape_plain {byte : UInt8} (h : byte ≠ 37) (rest : List UInt8) :
    unescape (byte :: rest) = byte :: unescape rest := by
  rw [unescape.eq_def]
  split
  · rename_i heq
    exact absurd (List.cons.inj heq).1 h
  · rename_i heq
    obtain ⟨rfl, rfl⟩ := List.cons.inj heq
    rfl
  · rename_i heq
    cases heq

/-- The decoder reads the bytes without the signs. -/
theorem decode_bytes_eq_ok (bytes out : List UInt8) :
    decodeBytes bytes = .ok out ↔
      WellEscaped (unsigned bytes) ∧ out = unescape (unsigned bytes) := by
  induction bytes using decodeBytes.induct generalizing out with
  | case1 =>
      show Except.ok [] = Except.ok out ↔ WellEscaped [] ∧ out = []
      simp [well_escaped_nil, eq_comm]
  | case2 first second rest ih =>
      rw [decode_bytes_escape]
      by_cases hread : hexDigit (unsignedByte first) = none ∨ hexDigit second = none
      · rw [decode_escape_other hread]
        simp [unsigned_unread hread]
      · obtain ⟨hfirst, hsecond⟩ := not_or.mp hread
        obtain ⟨high, hhigh⟩ := Option.ne_none_iff_exists'.mp hfirst
        obtain ⟨low, hlow⟩ := Option.ne_none_iff_exists'.mp hsecond
        rw [decode_escape_hex hhigh hlow, unsigned_read hfirst hsecond,
          well_escaped_escape hfirst hsecond, unescape, hhigh, hlow]
        simp [ih, and_assoc]
  | case3 rest hshort =>
      -- the escape is cut off by the end
      have hcut : decodeBytes (37 :: rest) = .error invalidEncoding := by
        rcases rest with _ | ⟨first, _ | ⟨second, rest⟩⟩
        · rfl
        · rfl
        · exact absurd rfl (hshort first second rest)
      have hbad : ¬WellEscaped (unsigned (37 :: rest)) := by
        rcases rest with _ | ⟨first, _ | ⟨second, rest⟩⟩
        · intro hwell
          obtain ⟨one, two, after, heq, -⟩ := hwell.escape
          cases heq
        · rw [unsigned_escape (by simp), unsigned_cons]
          intro hwell
          obtain ⟨one, two, after, heq, -⟩ := hwell.escape
          cases heq
        · exact absurd rfl (hshort first second rest)
      simp [hcut, hbad]
  | case4 byte rest hbyte ih =>
      rw [decode_bytes_plain hbyte, unsigned_plain hbyte, well_escaped_plain hbyte,
        unescape_plain hbyte]
      simp [ih, and_assoc]

/-- Without a signed escape the bytes stay as they are. -/
theorem unsigned_unchanged {bytes : List UInt8} (h : ¬SignedEscape bytes) :
    unsigned bytes = bytes := by
  induction bytes with
  | nil => rfl
  | cons byte rest ih =>
      have hrest : ¬SignedEscape rest := by
        intro hsigned
        obtain ⟨before, digit, after, rfl, hdigit⟩ := hsigned
        exact h ⟨byte :: before, digit, after, rfl, hdigit⟩
      by_cases hbyte : byte = 37
      · subst hbyte
        rw [unsigned_escape, ih hrest]
        intro digit after heq
        by_contra hdigit
        exact h ⟨[], digit, after, by rw [heq]; rfl, hdigit⟩
      · rw [unsigned_plain hbyte, ih hrest]

/-- A signed escape is none of percent-encoding. -/
theorem SignedEscape.not_encodes {bytes : List UInt8} (h : SignedEscape bytes) (text : String) :
    ¬Encodes bytes text := by
  intro hencodes
  obtain ⟨before, digit, after, rfl, -⟩ := h
  obtain ⟨first, second, rest, heq, hfirst, -⟩ := hencodes.1 before _ rfl
  obtain ⟨rfl, -⟩ := List.cons.inj heq
  exact hfirst (by decide)

/-- The decoder decodes the text without the signs. -/
theorem percent_decode_eq_ok (s text : String) :
    percentDecode s = .ok text ↔ Encodes (unsigned (osString s)) text := by
  unfold percentDecode Encodes
  cases hout : decodeBytes (osString s) with
  | error message =>
      have hbad : ¬WellEscaped (unsigned (osString s)) := by
        intro hwell
        have hok := (decode_bytes_eq_ok (osString s) _).mpr ⟨hwell, rfl⟩
        rw [hout] at hok
        cases hok
      simp [bind, Except.bind, hbad]
  | ok output =>
      obtain ⟨hwell, rfl⟩ := (decode_bytes_eq_ok (osString s) output).mp hout
      show (match String.fromUTF8? ⟨(unescape (unsigned (osString s))).toArray⟩ with
        | some text => Except.ok text
        | none => .error "Desktop OTLP header is not valid UTF-8") = .ok text ↔ _
      split
      · rename_i decoded hdecoded
        constructor
        · intro h
          cases h
          exact ⟨hwell, os_string_from_utf8 hdecoded⟩
        · intro h
          rw [← os_string_from_utf8 hdecoded] at h
          rw [os_string_injective h.2]
      · rename_i hdecoded
        constructor
        · intro h
          cases h
        · intro h
          rw [← h.2, from_utf8_os_string] at hdecoded
          cases hdecoded

/-! ## Decoding what was encoded -/

/-- The byte of a digit, and its value. -/
theorem escape_digit : ∀ value < 16,
    (escapeDigit value).toNat < 128 ∧ UInt8.ofNat (escapeDigit value).toNat ≠ 43 ∧
      hexDigit (UInt8.ofNat (escapeDigit value).toNat) = some value := by
  decide

/-- Bytes without a percent sign are copied. -/
theorem decode_bytes_copied {bytes rest out : List UInt8} (hbytes : ∀ byte ∈ bytes, byte ≠ 37)
    (h : decodeBytes rest = .ok out) : decodeBytes (bytes ++ rest) = .ok (bytes ++ out) := by
  induction bytes with
  | nil => exact h
  | cons byte bytes ih =>
      have htail := ih fun other hother => hbytes other (List.mem_cons_of_mem _ hother)
      rw [List.cons_append, decode_bytes_plain (hbytes byte List.mem_cons_self)]
      exact ⟨bytes ++ out, htail, rfl⟩

/-- An escape gives its byte. -/
theorem decode_bytes_escaped (byte : UInt8) {rest out : List UInt8}
    (h : decodeBytes rest = .ok out) :
    decodeBytes ((escapeByte byte).flatMap String.utf8EncodeChar ++ rest) = .ok (byte :: out) := by
  have hbyte := byte.toNat_lt
  obtain ⟨hhigh, hplus, hfirst⟩ := escape_digit (byte.toNat / 16) (by omega)
  obtain ⟨hlow, -, hsecond⟩ := escape_digit (byte.toNat % 16) (by omega)
  have hdigits : (escapeByte byte).flatMap String.utf8EncodeChar =
      [37, UInt8.ofNat (escapeDigit (byte.toNat / 16)).toNat,
        UInt8.ofNat (escapeDigit (byte.toNat % 16)).toNat] := by
    show String.utf8EncodeChar '%' ++ (String.utf8EncodeChar (escapeDigit (byte.toNat / 16)) ++
      (String.utf8EncodeChar (escapeDigit (byte.toNat % 16)) ++ [])) = _
    rw [utf8_encode_ascii hhigh, utf8_encode_ascii hlow]
    rfl
  have hvalue : byte = UInt8.ofNat (byte.toNat / 16 * 16 + byte.toNat % 16) := by
    rw [show byte.toNat / 16 * 16 + byte.toNat % 16 = byte.toNat by omega, UInt8.ofNat_toNat]
  rw [hdigits]
  refine (decode_bytes_escape _ _ rest (byte :: out)).mpr ⟨byte, out, ?_, h, rfl⟩
  rw [decode_escape_hex (by rw [unsignedByte, if_neg hplus]; exact hfirst) hsecond, ← hvalue]

/-- The bytes of a character come back. -/
theorem decode_bytes_encoded (keep : Char → Bool) (c : Char) {rest out : List UInt8}
    (h : decodeBytes rest = .ok out) :
    decodeBytes ((encodeChar keep c).flatMap String.utf8EncodeChar ++ rest) =
      .ok (String.utf8EncodeChar c ++ out) := by
  unfold encodeChar
  split
  · rename_i hkeep
    have hmark : c ≠ '%' := by
      simp at hkeep
      exact hkeep.2
    rw [List.flatMap_singleton]
    refine decode_bytes_copied ?_ h
    intro byte hbyte heq
    subst heq
    by_cases hascii : c.toNat < 128
    · rw [utf8_encode_ascii hascii, List.mem_singleton] at hbyte
      have hcode : 37 = c.toNat % 256 := congrArg UInt8.toNat hbyte
      have hsame : c.toNat = 37 := by omega
      rw [← Char.ofNat_toNat c, hsame] at hmark
      exact hmark rfl
    · have := utf8_encode_high (Nat.le_of_not_lt hascii) 37 hbyte
      exact absurd this (by decide)
  · induction String.utf8EncodeChar c with
    | nil => exact h
    | cons byte bytes ih =>
        rw [List.flatMap_cons, List.flatMap_append, List.append_assoc]
        exact decode_bytes_escaped byte ih

/-- Decoding the percent-encoding of a text gives the text. -/
theorem percent_decode_encode (keep : Char → Bool) (text : String) :
    percentDecode (percentEncode keep text) = .ok text := by
  have hbytes : decodeBytes (osString (percentEncode keep text)) = .ok (osString text) := by
    have htext : osString text = text.toList.flatMap String.utf8EncodeChar := by
      rw [← os_string_of_list, String.ofList_toList]
    rw [percentEncode, os_string_of_list, htext]
    induction text.toList with
    | nil => rfl
    | cons c rest ih =>
        rw [List.flatMap_cons, List.flatMap_append, List.flatMap_cons]
        exact decode_bytes_encoded keep c ih
  unfold percentDecode
  rw [hbytes]
  show (match String.fromUTF8? ⟨(osString text).toArray⟩ with
    | some text => Except.ok text
    | none => .error "Desktop OTLP header is not valid UTF-8") = .ok text
  rw [from_utf8_os_string]

/-- The decoder agrees with percent-encoding exactly on the texts without a signed escape, and on
those that are wrong even without the signs; what was encoded it always decodes. -/
theorem percent_decode_exact_iff (s : String) :
    ((∀ t, percentDecode s = .ok t ↔ Encodes (osString s) t) ∧
        ∀ keep text, percentDecode (percentEncode keep text) = .ok text) ↔
      (SignedEscape (osString s) → ∀ t, ¬Encodes (unsigned (osString s)) t) := by
  constructor
  · intro h hsigned t hencodes
    exact hsigned.not_encodes t ((h.1 t).mp ((percent_decode_eq_ok s t).mpr hencodes))
  · intro h
    refine ⟨?_, percent_decode_encode⟩
    intro t
    rw [percent_decode_eq_ok]
    by_cases hsigned : SignedEscape (osString s)
    · exact ⟨fun hencodes => absurd hencodes (h hsigned t),
        fun hencodes => absurd hencodes (hsigned.not_encodes t)⟩
    · rw [unsigned_unchanged hsigned]

/-- The decoder reads a sign as part of an escape. -/
theorem signed_escape_decoded :
    ¬∀ t, percentDecode "%+5" = .ok t ↔ Encodes (osString "%+5") t := by
  intro h
  have hencodes := (h (String.singleton (Char.ofNat 5))).mp (by decide +kernel)
  obtain ⟨first, second, rest, heq, hfirst, -⟩ := hencodes.1 [] [43, 53] (by decide)
  obtain ⟨rfl, -⟩ := List.cons.inj heq
  exact hfirst (by decide)

/-! ## Headers that were written -/

/-- A header that can be sent. -/
structure Header where
  name : List Char
  value : String
  nonempty : name ≠ []
  named : name.all nameChar = true
  single : (value.toList.any fun c => c = '\r' || c = '\n') = false

/-- An entry, with the value percent-encoded. -/
def Header.entry (keep : Char → Bool) (header : Header) : List Char :=
  header.name ++ '=' :: (percentEncode keep header.value).toList

/-- The entries behind each other. -/
def writeHeaders (keep : Char → Bool) (headers : List Header) : String :=
  String.ofList ([','].intercalate (headers.map (Header.entry keep)))

/-- A character that neither ends an entry nor is trimmed. -/
def Solid (c : Char) : Prop := c ≠ ',' ∧ isWhitespace c = false

theorem trim_solid {text : List Char} (h : ∀ c ∈ text, Solid c) : trim text = text := by
  have hfront : text.dropWhile isWhitespace = text := by
    cases text with
    | nil => rfl
    | cons c rest => rw [List.dropWhile_cons, (h c List.mem_cons_self).2]; rfl
  rw [trim, hfront, List.rdropWhile_eq_self_iff]
  intro hne hlast
  rw [(h _ (List.getLast_mem hne)).2] at hlast
  cases hlast

theorem escape_digit_solid : ∀ value < 16, escapeDigit value ≠ ',' ∧
    isWhitespace (escapeDigit value) = false := by
  decide

theorem escape_byte_solid (byte : UInt8) : ∀ c ∈ escapeByte byte, Solid c := by
  have hbyte := byte.toNat_lt
  have hhigh := escape_digit_solid (byte.toNat / 16) (by omega)
  have hlow := escape_digit_solid (byte.toNat % 16) (by omega)
  intro c hc
  simp only [escapeByte, List.mem_cons, List.not_mem_nil, or_false] at hc
  rcases hc with rfl | rfl | rfl
  · exact ⟨by decide, by decide⟩
  · exact hhigh
  · exact hlow

theorem percent_encode_solid {keep : Char → Bool} (hkeep : ∀ c, keep c = true → Solid c)
    (text : String) : ∀ c ∈ (percentEncode keep text).toList, Solid c := by
  intro c hc
  rw [percentEncode, String.toList_ofList, List.mem_flatMap] at hc
  obtain ⟨original, -, hc⟩ := hc
  unfold encodeChar at hc
  split at hc
  · rename_i hkept
    rw [List.mem_singleton.mp hc]
    simp at hkept
    exact hkeep original hkept.1
  · obtain ⟨byte, -, hc⟩ := List.mem_flatMap.mp hc
    exact escape_byte_solid byte c hc

theorem name_char_range {c : Char} (h : nameChar c = true) :
    (48 ≤ c.toNat ∧ c.toNat ≤ 57) ∨ (65 ≤ c.toNat ∧ c.toNat ≤ 90) ∨
      (97 ≤ c.toNat ∧ c.toNat ≤ 122) ∨ c.toNat = 45 ∨ c.toNat = 95 := by
  simp only [nameChar, isAsciiAlphanumeric, isAsciiAlphabetic, isAsciiLowercase, isAsciiUppercase,
    isAsciiDigit, Bool.or_eq_true, Bool.and_eq_true, decide_eq_true_iff, Char.le_def,
    UInt32.le_iff_toNat_le] at h
  rcases h with ((((h | h) | h) | rfl) | rfl)
  · exact .inr (.inr (.inl h))
  · exact .inr (.inl h)
  · exact .inl h
  · exact .inr (.inr (.inr (.inl rfl)))
  · exact .inr (.inr (.inr (.inr rfl)))

theorem name_char_solid {c : Char} (h : nameChar c = true) : Solid c ∧ c ≠ '=' := by
  have hrange := name_char_range h
  refine ⟨⟨?_, ?_⟩, ?_⟩
  · rintro rfl
    simp at hrange
  · simp only [isWhitespace, List.mem_cons, List.not_mem_nil, or_false, Bool.or_eq_false_iff,
      Bool.and_eq_false_imp, decide_eq_true_iff, decide_eq_false_iff_not]
    omega
  · rintro rfl
    simp at hrange

theorem entry_solid {keep : Char → Bool} (hkeep : ∀ c, keep c = true → Solid c)
    (header : Header) : ∀ c ∈ header.entry keep, Solid c := by
  intro c hc
  rcases List.mem_append.mp hc with hname | hvalue
  · exact (name_char_solid (List.all_eq_true.mp header.named c hname)).1
  · rcases List.mem_cons.mp hvalue with rfl | hvalue
    · exact ⟨by decide, by decide⟩
    · exact percent_encode_solid hkeep header.value c hvalue

/-- An entry is parsed to its header. -/
theorem parse_entry_written (keep : Char → Bool) (header : Header) :
    parseEntry (header.entry keep) = .ok (String.ofList header.name, header.value) := by
  have hname : ∀ c ∈ header.name, decide (c ≠ '=') = true := fun c hc =>
    decide_eq_true (name_char_solid (List.all_eq_true.mp header.named c hc)).2
  have hempty : header.name.isEmpty = false := by
    simpa using header.nonempty
  unfold parseEntry Header.entry
  rw [List.dropWhile_append_of_pos hname, List.takeWhile_append_of_pos hname]
  simp [hempty, header.named, percent_decode_encode, header.single, refuseIf, bind, Except.bind,
    pure, Except.pure]

theorem parse_entries_written (keep : Char → Bool) (headers : List Header) :
    parseEntries (headers.map (Header.entry keep)) =
      .ok (headers.map fun header => (String.ofList header.name, header.value)) := by
  induction headers with
  | nil => rfl
  | cons header rest ih =>
      rw [List.map_cons, parseEntries, parse_entry_written, ih]
      rfl

/-- The headers come back. -/
theorem parse_headers_written {keep : Char → Bool} (hkeep : ∀ c, keep c = true → Solid c)
    (headers : List Header) :
    parseHeaders (writeHeaders keep headers) =
      .ok (headers.map fun header => (String.ofList header.name, header.value)) := by
  have hsolid : ∀ entry ∈ headers.map (Header.entry keep), ∀ c ∈ entry, Solid c := by
    intro entry hentry
    obtain ⟨header, -, rfl⟩ := List.mem_map.mp hentry
    exact entry_solid hkeep header
  have htrim : (headers.map (Header.entry keep)).map trim = headers.map (Header.entry keep) :=
    List.map_congr_left (fun entry hentry => trim_solid (hsolid entry hentry)) |>.trans
      (List.map_id _)
  have hfilled : (headers.map (Header.entry keep)).filter (· ≠ []) =
      headers.map (Header.entry keep) := by
    rw [List.filter_eq_self]
    intro entry hentry
    obtain ⟨header, -, rfl⟩ := List.mem_map.mp hentry
    simp [Header.entry]
  unfold parseHeaders writeHeaders
  rw [String.toList_ofList]
  by_cases hnone : headers = []
  · subst hnone
    rfl
  · rw [List.splitOn_intercalate, htrim, hfilled, parse_entries_written]
    · intro entry hentry hcomma
      exact (hsolid entry hentry ',' hcomma).1 rfl
    · simpa using hnone

end PamDesktop.Shell.Otlp
