import Mathlib.Order.Basic

/-!
# Fixed-width arithmetic that saturates

`Ord::clamp` with its assertion, `i32::saturating_add`, `i32::saturating_sub` and
`i32::try_from`, with what each of them is in exact integers.
-/

namespace Foundations

/-! ## Clamping -/

section Clamp

variable {α : Type} [LE α] [LT α] [DecidableLE α] [DecidableLT α]

/-- `Ord::clamp`: crossed bounds are a panic. -/
def clamp (value low high : α) : Except String α :=
  if low ≤ high then
    .ok (if value < low then low else if high < value then high else value)
  else .error "assertion failed: min <= max"

variable [Std.IsLinearOrder α] [Std.LawfulOrderLT α] {value low high : α}

/-- Bounds that have not crossed are kept. -/
theorem clamp_between (hbounds : low ≤ high) :
    ∃ result, clamp value low high = .ok result ∧ low ≤ result ∧ result ≤ high := by
  refine ⟨_, if_pos hbounds, ?_⟩
  split
  · exact ⟨Std.le_refl low, hbounds⟩
  · rename_i hlow
    split
    · exact ⟨hbounds, Std.le_refl high⟩
    · rename_i hhigh
      exact ⟨Std.not_lt.mp hlow, Std.not_lt.mp hhigh⟩

/-- A value between the bounds is kept. -/
theorem clamp_of_between (hlow : low ≤ value) (hhigh : value ≤ high) :
    clamp value low high = .ok value := by
  have hbounds : low ≤ high := Std.le_trans hlow hhigh
  rw [clamp, if_pos hbounds, if_neg (Std.not_lt.mpr hlow), if_neg (Std.not_lt.mpr hhigh)]

end Clamp

/-! ## Signed words -/

/-- `i32::saturating_add`. -/
def saturatingAddSigned (a b : Int32) : Int32 := Int32.ofIntClamp (a.toInt + b.toInt)

/-- `i32::saturating_sub`. -/
def saturatingSubSigned (a b : Int32) : Int32 := Int32.ofIntClamp (a.toInt - b.toInt)

/-- `i32::try_from(value).unwrap_or(i32::MAX)`. -/
def signedOrMax (value : UInt32) : Int32 :=
  if value.toNat ≤ 2147483647 then Int32.ofNat value.toNat else Int32.maxValue

/-- The integers that a signed word holds. -/
theorem signed_range (value : Int32) :
    -2147483648 ≤ value.toInt ∧ value.toInt ≤ 2147483647 :=
  ⟨value.minValue_le_toInt, value.toInt_le⟩

/-- An integer is moved to the nearest word. -/
theorem to_int_of_int_clamp (value : Int) :
    (Int32.ofIntClamp value).toInt = max (-2147483648) (min 2147483647 value) := by
  rw [Int32.ofIntClamp]
  split
  · rename_i hlow
    have hlow' : -2147483648 ≤ value := hlow
    split
    · rename_i hhigh
      have hhigh' : value ≤ 2147483647 := hhigh
      rw [Int32.toInt_ofIntLE]
      omega
    · rename_i hhigh
      have hhigh' : ¬value ≤ 2147483647 := hhigh
      show (2147483647 : Int) = _
      omega
  · rename_i hlow
    have hlow' : ¬-2147483648 ≤ value := hlow
    show (-2147483648 : Int) = _
    omega

@[simp] theorem saturating_add_to_int (a b : Int32) :
    (saturatingAddSigned a b).toInt = max (-2147483648) (min 2147483647 (a.toInt + b.toInt)) :=
  to_int_of_int_clamp _

@[simp] theorem saturating_sub_to_int (a b : Int32) :
    (saturatingSubSigned a b).toInt = max (-2147483648) (min 2147483647 (a.toInt - b.toInt)) :=
  to_int_of_int_clamp _

@[simp] theorem signed_or_max_to_int (value : UInt32) :
    (signedOrMax value).toInt = min 2147483647 (value.toNat : Int) := by
  unfold signedOrMax
  split
  · rw [Int32.toInt_ofNat_of_lt (by omega)]
    omega
  · show (2147483647 : Int) = _
    omega

end Foundations
