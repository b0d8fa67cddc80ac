import PamDesktop.Foundations.SemanticVersion
import PamDesktop.Php.Texts

/-!
# Keyboard accelerators

`Accelerator::assert` on bytes and `validate_accelerator` on characters cut an accelerator at its
plus signs and check what is between them. `same_accelerators` says that they agree.
-/

namespace PamDesktop.Php

open Foundations Protocol

/-! ## The check of PHP -/

/-- The loop over the modifiers of an accelerator. -/
def assertModifiers (accelerator : List UInt8) (modifiers : List (List UInt8)) :
    List (List UInt8) → Except (List UInt8) Unit
  | [] => .ok ()
  | modifier :: rest =>
      let normalized := modifier.map lowerByte
      if !(["alt", "ctrl", "control", "shift", "super", "cmd", "command", "cmdorctrl"].map
          osString).contains normalized || modifiers.contains normalized then
        .error (osString "The keyboard accelerator " ++ accelerator ++
          osString " has an invalid or duplicate modifier.")
      else assertModifiers accelerator (normalized :: modifiers) rest

/-- `[A-Za-z0-9]`. -/
def isKeyByte (byte : UInt8) : Bool := letter byte || (48 ≤ byte.toNat && byte.toNat ≤ 57)

/-- `Accelerator::assert`. -/
def Accelerator.assert (accelerator : List UInt8) : Except (List UInt8) Unit :=
  if accelerator = [] ∨ 64 < accelerator.length ∨ matchesSpace accelerator = true then
    .error (osString "Keyboard accelerators must contain 1-64 non-whitespace characters.")
  else
    let tokens := accelerator.splitOn 43
    if tokens.contains [] then
      .error (osString "The keyboard accelerator " ++ accelerator ++ osString " is malformed.")
    else do
      assertModifiers accelerator [] tokens.dropLast
      let key := tokens.getLast?.getD []
      if 24 < key.length ∨ key = [] ∨ key.all isKeyByte = false then
        .error (osString "The keyboard accelerator " ++ accelerator ++
          osString " has an invalid key.")

/-! ## Tokens -/

/-- The modifiers of both. -/
theorem modifiers_agree (accelerator : List UInt8) (value : String) (seen : List String)
    (tokens : List (List Char)) :
    assertModifiers accelerator (seen.map osString) (tokens.map encode) = .ok () ↔
      validateModifiers value seen tokens = .ok () := by
  induction tokens generalizing seen with
  | nil => exact iff_of_true rfl rfl
  | cons token rest ih =>
      have hnormalized : (encode token).map lowerByte =
          osString (asciiLowercase (String.ofList token)) := by
        rw [encode_lowercase, os_string_encode, asciiLowercase, String.toList_ofList,
          String.toList_ofList]
      have hmem : ∀ names : List String,
          (names.map osString).contains (osString (asciiLowercase (String.ofList token))) =
            names.contains (asciiLowercase (String.ofList token)) := by
        intro names
        rw [Bool.eq_iff_iff, List.contains_iff_mem, List.contains_iff_mem]
        exact List.mem_map_of_injective fun _ _ => os_string_injective
      rw [List.map_cons, assertModifiers, validateModifiers, hnormalized,
        hmem, hmem]
      split
      · exact iff_of_false nofun nofun
      · exact ih (asciiLowercase (String.ofList token) :: seen)

/-- What `Accelerator::assert` asks of the tokens. -/
def TokensOk (accelerator : List UInt8) : Prop :=
  accelerator.length ≤ 64 ∧ [] ∉ accelerator.splitOn 43 ∧
    assertModifiers accelerator [] (accelerator.splitOn 43).dropLast = .ok () ∧
    ((accelerator.splitOn 43).getLast?.getD []).length ≤ 24 ∧
    ((accelerator.splitOn 43).getLast?.getD []).all isKeyByte = true

/-- Accepted modifiers are words of letters. -/
theorem modifiers_letters {accelerator : List UInt8} {seen tokens : List (List UInt8)}
    (h : assertModifiers accelerator seen tokens = .ok ()) :
    ∀ token ∈ tokens, token.all isKeyByte = true := by
  have hnames : ∀ name ∈ ["alt", "ctrl", "control", "shift", "super", "cmd", "command",
      "cmdorctrl"].map osString, name.all lowerLetter = true := by
    decide +kernel
  have hlower : ∀ byte, lowerLetter (lowerByte byte) = true → isKeyByte byte = true := by
    intro byte hbyte
    unfold lowerByte at hbyte
    split at hbyte
    · rename_i hupper
      rw [isKeyByte, Bool.or_eq_true]
      exact .inl (letter_iff.mpr (.inr hupper))
    · rw [isKeyByte, Bool.or_eq_true, letter, hbyte]
      exact .inl rfl
  induction tokens generalizing seen with
  | nil => exact fun _ hmem => absurd hmem List.not_mem_nil
  | cons token rest ih =>
      rw [assertModifiers] at h
      split at h
      · cases h
      · rename_i hknown
        rw [Bool.or_eq_true, not_or, Bool.not_eq_true', Bool.not_eq_false,
          List.contains_iff_mem] at hknown
        rw [List.forall_mem_cons]
        refine ⟨List.all_eq_true.mpr fun byte hbyte => hlower byte ?_, ih h⟩
        exact List.all_eq_true.mp (hnames _ hknown.1) _ (List.mem_map_of_mem hbyte)

/-- Such tokens have no other bytes than letters, digits and plus signs. -/
theorem TokensOk.bytes {accelerator : List UInt8} (h : TokensOk accelerator) :
    ∀ byte ∈ accelerator, isKeyByte byte = true ∨ byte = 43 := by
  obtain ⟨-, -, hmodifiers, -, hkey⟩ := h
  intro byte hbyte
  have hpieces : [43].intercalate (accelerator.splitOn 43) = accelerator :=
    List.intercalate_splitOn 43
  rw [← hpieces] at hbyte
  obtain hplus | ⟨token, htoken, hbyte⟩ := mem_intercalate hbyte
  · exact .inr hplus
  · refine .inl ?_
    have hlast := List.dropLast_append_getLast? _
      (List.getLast?_eq_some_getLast (List.splitOn_ne_nil 43 accelerator))
    rw [← hlast] at htoken
    obtain htoken | htoken := List.mem_append.mp htoken
    · exact List.all_eq_true.mp (modifiers_letters hmodifiers token htoken) byte hbyte
    · rw [List.getLast?_eq_some_getLast (List.splitOn_ne_nil 43 accelerator)] at hkey
      rw [List.mem_singleton.mp htoken] at hbyte
      exact List.all_eq_true.mp hkey byte hbyte

/-- Bytes of letters, digits and plus signs are ASCII and none of them is white space. -/
theorem key_byte_range {byte : UInt8} (h : isKeyByte byte = true ∨ byte = 43) :
    33 ≤ byte.toNat ∧ byte.toNat < 127 := by
  obtain h | rfl := h
  · rw [isKeyByte, Bool.or_eq_true, letter_iff, Bool.and_eq_true, decide_eq_true_iff,
      decide_eq_true_iff] at h
    omega
  · decide

/-- The tokens of an accelerator are not empty. -/
theorem last_token_nonempty {accelerator : List UInt8} (h : [] ∉ accelerator.splitOn 43) :
    (accelerator.splitOn 43).getLast?.getD [] ≠ [] := by
  have hnonempty := List.splitOn_ne_nil 43 accelerator
  rw [List.getLast?_eq_some_getLast hnonempty]
  exact fun hempty => h (hempty ▸ List.getLast_mem hnonempty)

/-- `Accelerator::assert` asks for no more than its tokens tell. -/
theorem assert_accelerator_iff (accelerator : List UInt8) :
    Accelerator.assert accelerator = .ok () ↔ TokensOk accelerator := by
  unfold Accelerator.assert
  constructor
  · intro h
    split at h
    · cases h
    · rename_i hshort
      rw [not_or, not_or, Nat.not_lt] at hshort
      dsimp only at h
      split at h
      · cases h
      · rename_i hpieces
        obtain ⟨hmodifiers, h⟩ := check_bind_ok.mp h
        split at h
        · cases h
        · rename_i hkey
          rw [not_or, not_or, Nat.not_lt, Bool.not_eq_false] at hkey
          rw [List.contains_iff_mem] at hpieces
          exact ⟨hshort.2.1, hpieces, hmodifiers, hkey.1, hkey.2.2⟩
  · intro h
    obtain ⟨hshort, hpieces, hmodifiers, hlength, hkey⟩ := h
    have hbytes := TokensOk.bytes ⟨hshort, hpieces, hmodifiers, hlength, hkey⟩
    have hempty : accelerator ≠ [] := by
      rintro rfl
      exact hpieces List.mem_cons_self
    have hspace : matchesSpace accelerator ≠ true := by
      unfold matchesSpace
      split
      · rename_i text htext
        rw [ne_eq, List.any_eq_true]
        intro h
        obtain ⟨c, hc, hspace⟩ := h
        have hvisible := visible_characters (fun byte hbyte => key_byte_range
          (hbytes byte (os_string_from_utf8 htext ▸ hbyte))) c hc
        rw [(visible_not_space hvisible).1] at hspace
        cases hspace
      · exact Bool.false_ne_true
    rw [if_neg (by rw [not_or, not_or, Nat.not_lt]; exact ⟨hempty, hshort, hspace⟩)]
    dsimp only
    rw [if_neg (by rw [List.contains_iff_mem]; exact hpieces)]
    refine check_bind_ok.mpr ⟨hmodifiers, ?_⟩
    rw [if_neg]
    · rfl
    · rw [not_or, not_or, Nat.not_lt, Bool.not_eq_false]
      exact ⟨hlength, last_token_nonempty hpieces, hkey⟩

/-- Accepted accelerators are ASCII, and so they are texts. -/
theorem accelerator_text {accelerator : List UInt8}
    (h : Accelerator.assert accelerator = .ok ()) : ∃ text, osString text = accelerator := by
  have hbytes := ((assert_accelerator_iff accelerator).mp h).bytes
  refine ⟨String.ofList (accelerator.map asciiChar), ?_⟩
  rw [os_string_ascii, List.map_map]
  · refine (List.map_congr_left fun byte hbyte => ?_).trans (List.map_id _)
    exact ascii_byte_char (by have := key_byte_range (hbytes byte hbyte); omega)
  · intro c hc
    obtain ⟨byte, hbyte, rfl⟩ := List.mem_map.mp hc
    have hrange := key_byte_range (hbytes byte hbyte)
    rw [ascii_char_to_nat (by omega)]
    omega

/-- A character of a key, byte for byte. -/
theorem key_char_iff (c : Char) :
    (String.utf8EncodeChar c).all isKeyByte = true ↔ isAsciiAlphanumeric c = true := by
  have hdigit : isAsciiDigit c = true ↔ 48 ≤ c.toNat ∧ c.toNat ≤ 57 := by
    rw [isAsciiDigit, Bool.and_eq_true, decide_eq_true_iff, decide_eq_true_iff, char_le_iff,
      char_le_iff]
    exact Iff.rfl
  rw [isAsciiAlphanumeric, Bool.or_eq_true, ascii_alphabetic_iff, hdigit]
  by_cases hascii : c.toNat < 128
  · rw [utf8_encode_ascii hascii, List.all_cons, List.all_nil, Bool.and_true, isKeyByte,
      Bool.or_eq_true, Bool.and_eq_true, decide_eq_true_iff, decide_eq_true_iff]
    have hbyte : (UInt8.ofNat c.toNat).toNat = c.toNat := by
      rw [UInt8.toNat_ofNat']
      omega
    rw [hbyte]
    exact or_congr_left ⟨fun h => ⟨hascii, h⟩, fun h => h.2⟩
  · refine iff_of_false ?_ fun h => ?_
    · intro hall
      have hhigh := utf8_encode_high (Nat.not_lt.mp hascii)
      obtain ⟨byte, rest, hencoded⟩ := encode_char_cons c
      have hbyte : byte ∈ String.utf8EncodeChar c := hencoded ▸ List.mem_cons_self
      have hrange := key_byte_range (.inl (List.all_eq_true.mp hall byte hbyte))
      have hlarge := hhigh byte hbyte
      omega
    · omega

theorem encode_key (key : List Char) :
    (encode key).all isKeyByte = key.all isAsciiAlphanumeric := by
  rw [Bool.eq_iff_iff, encode, List.all_flatMap, List.all_eq_true, List.all_eq_true]
  exact forall₂_congr fun c _ => key_char_iff c

/-- What the host asks of the tokens is the same. -/
theorem tokens_ok_iff (value : String) : TokensOk (osString value) ↔
    value.utf8ByteSize ≤ 64 ∧ [] ∉ value.toList.splitOn '+' ∧
      validateModifiers value [] (value.toList.splitOn '+').dropLast = .ok () ∧
      (String.ofList ((value.toList.splitOn '+').getLast?.getD [])).utf8ByteSize ≤ 24 ∧
      ((value.toList.splitOn '+').getLast?.getD []).all isAsciiAlphanumeric = true := by
  have htokens : (osString value).splitOn 43 = (value.toList.splitOn '+').map encode := by
    rw [os_string_encode]
    have hplus : '+'.toNat < 128 := by decide
    exact encode_split hplus value.toList
  have hempty : [] ∈ (value.toList.splitOn '+').map encode ↔ [] ∈ value.toList.splitOn '+' := by
    rw [List.mem_map]
    constructor
    · intro h
      obtain ⟨token, htoken, hnone⟩ := h
      exact encode_empty.mp hnone ▸ htoken
    · exact fun h => ⟨[], h, rfl⟩
  have hkey : (((value.toList.splitOn '+').map encode).getLast?.getD []) =
      encode ((value.toList.splitOn '+').getLast?.getD []) := by
    rw [List.getLast?_map]
    cases (value.toList.splitOn '+').getLast? <;> rfl
  have hmodifiers := modifiers_agree (osString value) value []
    (value.toList.splitOn '+').dropLast
  rw [List.map_nil] at hmodifiers
  unfold TokensOk
  rw [htokens, hempty, hkey, ← List.map_dropLast, hmodifiers, encode_key, encode_length]
  exact Iff.rfl

/-- PHP and the host accept the same accelerators. -/
theorem same_accelerators (value : String) :
    Accelerator.assert (osString value) = .ok () ↔ validateAccelerator value = .ok () := by
  rw [assert_accelerator_iff]
  unfold validateAccelerator
  constructor
  · intro h
    obtain ⟨hshort, hpieces, hmodifiers, hlength, hkey⟩ := (tokens_ok_iff value).mp h
    have hvisible := visible_characters fun byte hbyte => key_byte_range (h.bytes byte hbyte)
    have hspace : value.toList.any isWhitespace = false := by
      rw [← Bool.not_eq_true, List.any_eq_true]
      intro hany
      obtain ⟨c, hc, hspace⟩ := hany
      rw [(visible_not_space (hvisible c hc)).2] at hspace
      cases hspace
    have hempty : value.toList ≠ [] := by
      intro hempty
      rw [hempty] at hpieces
      exact hpieces List.mem_cons_self
    rw [if_neg (by simp [hempty, hspace, hshort])]
    dsimp only
    rw [if_neg (by rw [List.contains_iff_mem]; exact hpieces)]
    refine check_bind_ok.mpr ⟨hmodifiers, ?_⟩
    rw [if_neg (by simp [hkey]; omega)]
    rfl
  · intro h
    rw [tokens_ok_iff]
    split at h
    · cases h
    · rename_i hshort
      dsimp only at h
      split at h
      · cases h
      · rename_i hpieces
        obtain ⟨hmodifiers, h⟩ := check_bind_ok.mp h
        split at h
        · cases h
        · rename_i hkey
          simp only [Bool.or_eq_true, decide_eq_true_iff, not_or, Nat.not_lt,
            Bool.not_eq_true', Bool.not_eq_false] at hshort hkey
          rw [List.contains_iff_mem] at hpieces
          exact ⟨hshort.1.2, hpieces, hmodifiers, hkey.1, hkey.2⟩

end PamDesktop.Php
