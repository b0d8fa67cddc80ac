import Mathlib.Data.List.Forall2
import PamDesktop.Foundations.PathText

/-!
# Lossy decoding of a text

`toStringLossy` gives back a text from its bytes, whatever its characters: each character is one
complete sequence, for which nothing is replaced.
-/

namespace Foundations

/-- The byte lies in the range. -/
def InRange (range : UInt8 × UInt8) (byte : UInt8) : Prop := range.1 ≤ byte ∧ byte ≤ range.2

/-- Bytes that fit their ranges one by one are a prefix that fits. -/
theorem fitting_prefix_append {ranges : List (UInt8 × UInt8)} {bytes : List UInt8}
    (h : List.Forall₂ InRange ranges bytes) (rest : List UInt8) :
    fittingPrefix ranges (bytes ++ rest) = bytes := by
  induction h with
  | nil => cases rest <;> rfl
  | cons hfits _ ih =>
      unfold InRange at hfits
      rw [List.cons_append, fittingPrefix, if_pos hfits, ih]

/-- A complete sequence is decoded to its scalar value. -/
theorem lossy_chars_sequence {first : UInt8} {tail : List UInt8} (fuel : Nat) (rest : List UInt8)
    (hhigh : ¬first < 0x80) (hsome : tail ≠ [])
    (hfits : List.Forall₂ InRange (utf8Continuations first) tail) :
    lossyChars (fuel + 1) (first :: tail ++ rest) =
      Char.ofNat (scalarValue first tail) :: lossyChars fuel rest := by
  have hlength := hfits.length_eq
  have hranges : utf8Continuations first ≠ [] := by
    intro hnil
    rw [hnil] at hlength
    exact hsome (List.eq_nil_of_length_eq_zero hlength.symm)
  rw [List.cons_append, lossyChars, if_neg hhigh, fitting_prefix_append hfits]
  show (if utf8Continuations first ≠ [] ∧ _ then _ else _) :: _ = _
  rw [if_pos ⟨hranges, hlength.symm⟩, List.drop_left]

/-- The ranges behind a first byte, by its number. -/
theorem utf8_continuations_of_nat : ∀ value < 256,
    utf8Continuations (UInt8.ofNat value) =
      if 0xC2 ≤ value ∧ value ≤ 0xDF then [(0x80, 0xBF)]
      else if value = 0xE0 then [(0xA0, 0xBF), (0x80, 0xBF)]
      else if value = 0xED then [(0x80, 0x9F), (0x80, 0xBF)]
      else if 0xE1 ≤ value ∧ value ≤ 0xEF then [(0x80, 0xBF), (0x80, 0xBF)]
      else if value = 0xF0 then [(0x90, 0xBF), (0x80, 0xBF), (0x80, 0xBF)]
      else if 0xF1 ≤ value ∧ value ≤ 0xF3 then [(0x80, 0xBF), (0x80, 0xBF), (0x80, 0xBF)]
      else if value = 0xF4 then [(0x80, 0x8F), (0x80, 0xBF), (0x80, 0xBF)]
      else [] := by
  decide +kernel

theorem in_range_of_nat {low high value : Nat} (hlow : low ≤ value) (hhigh : value ≤ high)
    (hbound : high < 256) : InRange (UInt8.ofNat low, UInt8.ofNat high) (UInt8.ofNat value) := by
  unfold InRange
  rw [UInt8.le_iff_toNat_le, UInt8.le_iff_toNat_le, UInt8.toNat_ofNat', UInt8.toNat_ofNat',
    UInt8.toNat_ofNat']
  omega

/-- A byte that continues a sequence. -/
theorem continuation_in_range (value : Nat) :
    InRange (0x80, 0xBF) (UInt8.ofNat (value % 64 + 0x80)) :=
  show InRange (UInt8.ofNat 0x80, UInt8.ofNat 0xBF) _ from
    in_range_of_nat (by omega) (by omega) (by omega)

theorem not_ascii_of_nat {value : Nat} (hvalue : value < 256) (hhigh : 128 ≤ value) :
    ¬UInt8.ofNat value < 0x80 := by
  intro h
  rw [UInt8.lt_iff_toNat_lt, UInt8.toNat_ofNat'] at h
  have h' : value % 256 < 128 := h
  omega

/-- The bytes of a character are one sequence, which is decoded to the character. -/
theorem lossy_chars_encode (fuel : Nat) (c : Char) (rest : List UInt8) :
    lossyChars (fuel + 1) (String.utf8EncodeChar c ++ rest) = c :: lossyChars fuel rest := by
  have hvalid : c.val.toNat < 0xD800 ∨ 0xDFFF < c.val.toNat ∧ c.val.toNat < 0x110000 := c.valid
  have hchar : Char.ofNat c.val.toNat = c := Char.ofNat_toNat c
  unfold String.utf8EncodeChar
  simp only
  generalize c.val.toNat = v at hvalid hchar
  split
  · rename_i h
    have hascii : UInt8.ofNat v < 0x80 := by
      rw [UInt8.lt_iff_toNat_lt, UInt8.toNat_ofNat']
      show v % 256 < 128
      omega
    have hnat : (UInt8.ofNat v).toNat = v := by
      rw [UInt8.toNat_ofNat']
      omega
    rw [List.singleton_append, lossyChars, if_pos hascii, hnat, hchar]
  · rename_i hone
    split
    · rename_i htwo
      rw [lossy_chars_sequence fuel rest (not_ascii_of_nat (by omega) (by omega))
        (List.cons_ne_nil _ _)]
      · congr 1
        rw [← hchar]
        congr 1
        simp only [scalarValue, List.length_cons, List.length_nil, List.foldl, UInt8.toNat_ofNat']
        omega
      · rw [utf8_continuations_of_nat _ (by omega), if_pos (by omega)]
        exact .cons (continuation_in_range v) .nil
    · rename_i htwo
      split
      · rename_i hthree
        rw [lossy_chars_sequence fuel rest (not_ascii_of_nat (by omega) (by omega))
          (List.cons_ne_nil _ _)]
        · congr 1
          rw [← hchar]
          congr 1
          simp only [scalarValue, List.length_cons, List.length_nil, List.foldl,
            UInt8.toNat_ofNat']
          omega
        · rw [utf8_continuations_of_nat _ (by omega), if_neg (by omega)]
          -- the second byte is bounded where a shorter sequence or a surrogate would begin
          by_cases hlow : v / 4096 = 0
          · rw [if_pos (by omega)]
            exact .cons (show InRange (UInt8.ofNat 0xA0, UInt8.ofNat 0xBF) _ from
              in_range_of_nat (by omega) (by omega) (by omega))
              (.cons (continuation_in_range v) .nil)
          · rw [if_neg (by omega)]
            by_cases hsurrogates : v / 4096 = 13
            · rw [if_pos (by omega)]
              exact .cons (show InRange (UInt8.ofNat 0x80, UInt8.ofNat 0x9F) _ from
                in_range_of_nat (by omega) (by omega) (by omega))
                (.cons (continuation_in_range v) .nil)
            · rw [if_neg (by omega), if_pos (by omega)]
              exact .cons (continuation_in_range (v / 64)) (.cons (continuation_in_range v) .nil)
      · rename_i hthree
        rw [lossy_chars_sequence fuel rest (not_ascii_of_nat (by omega) (by omega))
          (List.cons_ne_nil _ _)]
        · congr 1
          rw [← hchar]
          congr 1
          simp only [scalarValue, List.length_cons, List.length_nil, List.foldl,
            UInt8.toNat_ofNat']
          omega
        · rw [utf8_continuations_of_nat _ (by omega), if_neg (by omega), if_neg (by omega),
            if_neg (by omega), if_neg (by omega)]
          by_cases hlow : v / 262144 = 0
          · rw [if_pos (by omega)]
            exact .cons (show InRange (UInt8.ofNat 0x90, UInt8.ofNat 0xBF) _ from
              in_range_of_nat (by omega) (by omega) (by omega))
              (.cons (continuation_in_range (v / 64)) (.cons (continuation_in_range v) .nil))
          · rw [if_neg (by omega)]
            by_cases hhigh : v / 262144 = 4
            · rw [if_neg (by omega), if_pos (by omega)]
              exact .cons (show InRange (UInt8.ofNat 0x80, UInt8.ofNat 0x8F) _ from
                in_range_of_nat (by omega) (by omega) (by omega))
                (.cons (continuation_in_range (v / 64)) (.cons (continuation_in_range v) .nil))
            · rw [if_pos (by omega)]
              exact .cons (continuation_in_range (v / 4096))
                (.cons (continuation_in_range (v / 64)) (.cons (continuation_in_range v) .nil))

/-- The bytes of a text are decoded to its characters. -/
theorem lossy_chars_text (text : List Char) (fuel : Nat)
    (hfuel : (text.flatMap String.utf8EncodeChar).length ≤ fuel) :
    lossyChars fuel (text.flatMap String.utf8EncodeChar) = text := by
  induction text generalizing fuel with
  | nil => cases fuel <;> rfl
  | cons c text ih =>
      rw [List.flatMap_cons, List.length_append, String.length_utf8EncodeChar] at hfuel
      have hsome := Char.utf8Size_pos c
      cases fuel with
      | zero => omega
      | succ fuel => rw [List.flatMap_cons, lossy_chars_encode, ih fuel (by omega)]

theorem to_string_lossy_os_string (text : String) : toStringLossy (osString text) = text := by
  have hbytes : osString text = text.toList.flatMap String.utf8EncodeChar := by
    rw [← os_string_of_list, String.ofList_toList]
  rw [toStringLossy, hbytes, lossy_chars_text _ _ (Nat.le_refl _), String.ofList_toList]

end Foundations
