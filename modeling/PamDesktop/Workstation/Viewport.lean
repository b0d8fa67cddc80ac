import Mathlib.Data.Rat.Floor
import Mathlib.Order.Interval.Set.Basic
import Mathlib.Tactic.FieldSimp
import Mathlib.Tactic.Linarith
import Mathlib.Tactic.Positivity

/-!
# The virtual list

`VirtualViewport` of the workstation script, in exact arithmetic: the rows that `render` mounts, and
where `scrollToIndex` scrolls to. A list that is longer than the browser can scroll is scaled. Read
`shows_rows_iff` for the lists that show every row they should.
-/

namespace PamDesktop.Workstation

/-! ## The viewport -/

/-- `VirtualViewport.MAX_SCROLL_SIZE`. -/
def maxScrollSize : ℚ := 8000000

/-- A virtual list whose options have been accepted. -/
structure VirtualViewport where
  count : ℕ
  estimateSize : ℚ
  overscan : ℕ
  positive : 0 < estimateSize

/-- What `range` returns: the rows from `start` on and before `stop`. -/
structure RowRange where
  start : ℤ
  stop : ℤ
  offset : ℚ
  totalSize : ℚ
deriving DecidableEq

namespace VirtualViewport

variable (v : VirtualViewport)

/-- `range`. -/
def range (offset size : ℚ) : RowRange :=
  let start := max 0 (⌊offset / v.estimateSize⌋ - v.overscan)
  { start
    stop := min v.count (start + ⌈size / v.estimateSize⌉ + v.overscan * 2)
    offset := start * v.estimateSize
    totalSize := v.count * v.estimateSize }

/-- The height of all rows. -/
def total : ℚ := v.count * v.estimateSize

/-- The height of the canvas. -/
def physical : ℚ := min v.total maxScrollSize

/-- How far a container of this height scrolls. -/
def physicalRange (clientHeight : ℕ) : ℚ := max 0 (v.physical - clientHeight)

/-- How far it would scroll over all rows. -/
def logicalRange (clientHeight : ℕ) : ℚ := max 0 (v.total - clientHeight)

/-- The offset in the rows for a position of the container. -/
def logicalOffset (clientHeight : ℕ) (scrollTop : ℚ) : ℚ :=
  if v.physicalRange clientHeight = 0 then 0
  else scrollTop / v.physicalRange clientHeight * v.logicalRange clientHeight

/-- The rows that `render` mounts. -/
def render (clientHeight : ℕ) (scrollTop : ℚ) : RowRange :=
  v.range (v.logicalOffset clientHeight scrollTop) clientHeight

/-- The position that `scrollToIndex` asks for. -/
def scrollToIndex (clientHeight : ℕ) (index : ℕ) : ℚ :=
  min (v.physicalRange clientHeight)
    (index * v.estimateSize / max 1 (v.total - clientHeight) * v.physicalRange clientHeight)

/-! ## What a list shows -/

/-- The row is in the range. -/
def Mounted (rows : RowRange) (index : ℕ) : Prop := rows.start ≤ index ∧ index < rows.stop

/-- A point of the row is in a viewport of this height at the offset. -/
def Visible (offset : ℚ) (clientHeight index : ℕ) : Prop :=
  ∃ point : ℚ, index * v.estimateSize ≤ point ∧ point < (index + 1) * v.estimateSize ∧
    offset ≤ point ∧ point < offset + clientHeight

/-- Every visible row is mounted, a range within the list is no less than empty, and a row is
mounted after it has been scrolled to. -/
structure ShowsRows (clientHeight : ℕ) (scrollTop : ℚ) : Prop where
  visible : ∀ index < v.count,
    v.Visible (v.logicalOffset clientHeight scrollTop) clientHeight index →
      Mounted (v.render clientHeight scrollTop) index
  ordered : ∀ offset, 0 ≤ offset → offset ≤ v.total →
    (v.range offset clientHeight).start ≤ (v.range offset clientHeight).stop
  scrolled : ∀ index < v.count,
    Mounted (v.render clientHeight (v.scrollToIndex clientHeight index)) index

/-- Where nothing is mounted beyond the viewport, the part of the first row above it makes up for
the part of the last row below it, or the list ends there. -/
def Covers (clientHeight : ℕ) (scrollTop : ℚ) : Prop :=
  let first := v.logicalOffset clientHeight scrollTop / v.estimateSize
  let size := clientHeight / v.estimateSize
  v.overscan ≠ 0 ∨ clientHeight = 0 ∨ v.count ≤ ⌊first⌋ + ⌈size⌉ ∨ Int.fract first + size ≤ ⌈size⌉

/-- A container that shows something scrolls, or has all rows, or the row is at the beginning. For a
container without height the rows beyond the viewport have to do. -/
def Reaches (clientHeight index : ℕ) : Prop :=
  if clientHeight = 0 then
    (index : ℤ) < max 0 (⌊index * min 1 v.total⌋ - v.overscan) + v.overscan * 2
  else v.physicalRange clientHeight ≠ 0 ∨ v.total ≤ clientHeight ∨
    (index : ℤ) < ⌈clientHeight / v.estimateSize⌉ + v.overscan * 2

variable {v}

/-! ## Ranges -/

theorem mounted_iff {offset size : ℚ} {index : ℕ} : Mounted (v.range offset size) index ↔
    max 0 (⌊offset / v.estimateSize⌋ - v.overscan) ≤ index ∧ index < v.count ∧
      index < max 0 (⌊offset / v.estimateSize⌋ - v.overscan) + ⌈size / v.estimateSize⌉ +
        v.overscan * 2 := by
  unfold Mounted range
  rw [lt_min_iff, Nat.cast_lt]

/-- The rows from the first one at the offset on, for the size, are mounted. -/
theorem mounted_of_first {offset size : ℚ} {index : ℕ} (hindex : index < v.count)
    (hfirst : ⌊offset / v.estimateSize⌋ ≤ index)
    (hlast : index < ⌊offset / v.estimateSize⌋ + ⌈size / v.estimateSize⌉) :
    Mounted (v.range offset size) index := by
  rw [mounted_iff]
  refine ⟨by omega, hindex, by omega⟩

/-- The visible rows are those from the first one at the offset to the last one before the end of
the viewport. -/
theorem visible_iff {offset : ℚ} {clientHeight index : ℕ} :
    v.Visible offset clientHeight index ↔ clientHeight ≠ 0 ∧
      ⌊offset / v.estimateSize⌋ ≤ index ∧
        (index : ℤ) < ⌈(offset + clientHeight) / v.estimateSize⌉ := by
  have hpositive := v.positive
  have hfirst : ⌊offset / v.estimateSize⌋ ≤ (index : ℤ) ↔
      offset < (index + 1) * v.estimateSize := by
    rw [← Int.lt_add_one_iff, Int.floor_lt, div_lt_iff₀ hpositive]
    push_cast
    rfl
  have hlast : (index : ℤ) < ⌈(offset + clientHeight) / v.estimateSize⌉ ↔
      index * v.estimateSize < offset + clientHeight := by
    rw [Int.lt_ceil, lt_div_iff₀ hpositive]
    push_cast
    rfl
  rw [hfirst, hlast, ← Nat.pos_iff_ne_zero]
  constructor
  · intro ⟨point, hrow, hnext, hoffset, hend⟩
    have hheight : (0 : ℚ) < clientHeight := by linarith
    exact ⟨Nat.cast_pos.mp hheight, by linarith, by linarith⟩
  · intro ⟨hheight, habove, hbelow⟩
    have hheight' : (0 : ℚ) < clientHeight := Nat.cast_pos.mpr hheight
    refine ⟨max (index * v.estimateSize) offset, le_max_left _ _, max_lt ?_ habove,
      le_max_right _ _, max_lt hbelow (by linarith)⟩
    linarith

/-- A range within the list is no less than empty. -/
theorem range_ordered {offset : ℚ} (clientHeight : ℕ) (htotal : offset ≤ v.total) :
    (v.range offset clientHeight).start ≤ (v.range offset clientHeight).stop := by
  have hpositive := v.positive
  have hfloor : ⌊offset / v.estimateSize⌋ ≤ (v.count : ℤ) := by
    refine Int.floor_le_iff.mpr ?_
    rw [div_lt_iff₀ hpositive]
    unfold total at htotal
    push_cast
    linarith
  have hsize : 0 ≤ ⌈clientHeight / v.estimateSize⌉ := Int.ceil_nonneg (by positivity)
  refine le_min ?_ ?_ <;> dsimp only [range] <;> omega

/-! ## Scrolling -/

theorem logical_offset_nonneg {clientHeight : ℕ} {scrollTop : ℚ}
    (hscroll : scrollTop ∈ Set.Icc 0 (v.physicalRange clientHeight)) :
    0 ≤ v.logicalOffset clientHeight scrollTop := by
  unfold logicalOffset
  split
  · exact le_rfl
  · exact mul_nonneg (div_nonneg hscroll.1 (hscroll.1.trans hscroll.2)) (le_max_left _ _)

/-- Every visible row is mounted exactly if what is mounted covers the viewport. -/
theorem covers_iff {clientHeight : ℕ} {scrollTop : ℚ}
    (hscroll : scrollTop ∈ Set.Icc 0 (v.physicalRange clientHeight)) :
    (∀ index < v.count, v.Visible (v.logicalOffset clientHeight scrollTop) clientHeight index →
      Mounted (v.render clientHeight scrollTop) index) ↔ v.Covers clientHeight scrollTop := by
  have hoffset := logical_offset_nonneg hscroll
  have hpositive := v.positive
  unfold render Covers
  generalize v.logicalOffset clientHeight scrollTop = offset at hoffset
  dsimp only
  have hfloor : 0 ≤ ⌊offset / v.estimateSize⌋ := Int.floor_nonneg.mpr (by positivity)
  have hsize : 0 ≤ ⌈clientHeight / v.estimateSize⌉ := Int.ceil_nonneg (by positivity)
  -- one row more than fits is enough wherever the viewport begins
  have hend : ⌈(offset + clientHeight) / v.estimateSize⌉ ≤
      ⌊offset / v.estimateSize⌋ + 1 + ⌈clientHeight / v.estimateSize⌉ := by
    refine Int.ceil_le.mpr ?_
    rw [add_div]
    push_cast
    linarith [Int.lt_floor_add_one (offset / v.estimateSize),
      Int.le_ceil (clientHeight / v.estimateSize)]
  have hfract : Int.fract (offset / v.estimateSize) + clientHeight / v.estimateSize ≤
      ⌈clientHeight / v.estimateSize⌉ ↔ ⌈(offset + clientHeight) / v.estimateSize⌉ ≤
        ⌊offset / v.estimateSize⌋ + ⌈clientHeight / v.estimateSize⌉ := by
    rw [Int.ceil_le, add_div, Int.fract]
    push_cast
    constructor <;> intro h <;> linarith
  rw [hfract]
  constructor
  · intro hmounted
    by_contra hnot
    push Not at hnot
    obtain ⟨hoverscan, hheight, hcount, hbeyond⟩ := hnot
    obtain ⟨index, hindex⟩ := Int.eq_ofNat_of_zero_le (add_nonneg hfloor hsize)
    have hrow := hmounted index (by omega) (visible_iff.mpr ⟨hheight, by omega, by omega⟩)
    rw [mounted_iff] at hrow
    omega
  · intro hcovers index hindex hvisible
    obtain ⟨hheight, hfirst, hlast⟩ := visible_iff.mp hvisible
    rw [mounted_iff]
    omega

/-- Where the container scrolls, the offset after `scrollToIndex` is that of the row, scaled where
less than a pixel is out of sight, or the last one. -/
theorem offset_scroll_to_index {clientHeight : ℕ} (index : ℕ)
    (hscrolls : v.physicalRange clientHeight ≠ 0) :
    v.logicalOffset clientHeight (v.scrollToIndex clientHeight index) =
      min 1 (index * v.estimateSize / max 1 (v.total - clientHeight)) *
        (v.total - clientHeight) ∧ clientHeight < v.total := by
  have hrange : 0 < v.physicalRange clientHeight := (le_max_left _ _).lt_of_ne' hscrolls
  have hphysical : 0 < v.physical - clientHeight := by
    unfold physicalRange at hrange
    simpa using hrange
  have htotal : clientHeight < v.total := by
    have hle : v.physical ≤ v.total := min_le_left _ _
    linarith
  refine ⟨?_, htotal⟩
  unfold logicalOffset scrollToIndex
  rw [if_neg hscrolls, logicalRange, max_eq_right (sub_nonneg.mpr htotal.le)]
  congr 1
  rw [div_eq_iff hscrolls, min_mul_of_nonneg _ _ hrange.le, one_mul]

/-- At the last offset, the rows that fit are the last ones. -/
theorem last_rows (clientHeight : ℕ) :
    ⌊(v.total - clientHeight) / v.estimateSize⌋ + ⌈clientHeight / v.estimateSize⌉ = v.count := by
  have hpositive := v.positive
  have hquotient : (v.total - clientHeight) / v.estimateSize =
      v.count + -(clientHeight / v.estimateSize) := by
    unfold total
    field_simp
    ring
  rw [hquotient, Int.floor_natCast_add, Int.floor_neg]
  omega

/-- Where a container with a height scrolls, a row is mounted after it has been scrolled to. -/
theorem scrolled_mounted {clientHeight index : ℕ} (hindex : index < v.count)
    (hheight : clientHeight ≠ 0) (hscrolls : v.physicalRange clientHeight ≠ 0) :
    Mounted (v.render clientHeight (v.scrollToIndex clientHeight index)) index := by
  obtain ⟨hoffset, htotal⟩ := offset_scroll_to_index index hscrolls
  have hpositive := v.positive
  have hone : (1 : ℚ) ≤ max 1 (v.total - clientHeight) := le_max_left _ _
  have hrest : v.total - clientHeight ≤ max 1 (v.total - clientHeight) := le_max_right _ _
  have hheight' : (1 : ℚ) ≤ clientHeight := by exact_mod_cast Nat.one_le_iff_ne_zero.mpr hheight
  unfold render
  rw [hoffset]
  obtain hend | hwithin := le_or_gt 1 (index * v.estimateSize / max 1 (v.total - clientHeight))
  · -- the list has been scrolled to its end
    rw [min_eq_left hend, one_mul]
    have hrow : v.total - clientHeight ≤ index * v.estimateSize := by
      rw [le_div_iff₀ (by linarith)] at hend
      linarith
    refine mounted_of_first hindex ?_ (by rw [last_rows]; omega)
    refine Int.floor_le_iff.mpr ?_
    rw [div_lt_iff₀ hpositive]
    push_cast
    linarith
  · -- the list has been scrolled to the row, or by less than a pixel
    rw [min_eq_right hwithin.le]
    generalize hscroll : index * v.estimateSize / max 1 (v.total - clientHeight) *
      (v.total - clientHeight) = offset
    have hlogical : 0 < v.total - clientHeight := sub_pos.mpr htotal
    have hoffset : 0 ≤ offset := by
      rw [← hscroll]
      positivity
    have hrow : offset ≤ index * v.estimateSize := by
      rw [← hscroll, div_mul_eq_mul_div, div_le_iff₀ (by linarith)]
      exact mul_le_mul_of_nonneg_left hrest (by positivity)
    have hfirst : ⌊offset / v.estimateSize⌋ ≤ (index : ℤ) := by
      refine Int.floor_le_iff.mpr ?_
      rw [div_lt_iff₀ hpositive]
      push_cast
      linarith
    have hsize : 0 < ⌈clientHeight / v.estimateSize⌉ := Int.ceil_pos.mpr (by positivity)
    refine mounted_of_first hindex hfirst ?_
    obtain hscaled | hexact := le_total (v.total - clientHeight) 1
    · have hbelow : (index : ℚ) * v.estimateSize < 1 := by
        rwa [max_eq_left hscaled, div_one] at hwithin
      have hfloor : 0 ≤ ⌊offset / v.estimateSize⌋ := Int.floor_nonneg.mpr (by positivity)
      have hfits : (index : ℤ) < ⌈clientHeight / v.estimateSize⌉ := by
        rw [Int.lt_ceil, lt_div_iff₀ hpositive]
        push_cast
        linarith
      omega
    · have hsame : offset = index * v.estimateSize := by
        rw [← hscroll, max_eq_right hexact, div_mul_cancel₀ _ hlogical.ne']
      rw [hsame, mul_div_cancel_right₀ _ hpositive.ne', Int.floor_natCast]
      omega

/-- A container that does not scroll is at the beginning. -/
theorem unscrolled_mounted_iff {clientHeight index : ℕ} {scrollTop : ℚ} (hindex : index < v.count)
    (hscrolls : v.physicalRange clientHeight = 0) :
    Mounted (v.render clientHeight scrollTop) index ↔ v.total ≤ clientHeight ∨
      (index : ℤ) < ⌈clientHeight / v.estimateSize⌉ + v.overscan * 2 := by
  have hpositive := v.positive
  unfold render logicalOffset
  rw [if_pos hscrolls, mounted_iff, zero_div, Int.floor_zero]
  have hfits : v.total ≤ clientHeight →
      (index : ℤ) < ⌈clientHeight / v.estimateSize⌉ := by
    intro htotal
    have hcount : (v.count : ℤ) ≤ ⌈clientHeight / v.estimateSize⌉ := by
      refine Int.cast_le.mp ((?_ : ((v.count : ℤ) : ℚ) ≤ _).trans (Int.le_ceil _))
      rw [le_div_iff₀ hpositive]
      push_cast
      exact htotal
    omega
  constructor
  · intro ⟨_, _, hlast⟩
    omega
  · intro hreached
    have hmounted := hreached.imp_left hfits
    omega

/-- Where a container without height gets to. -/
theorem flat_offset {index : ℕ} (hindex : index < v.count) :
    v.logicalOffset 0 (v.scrollToIndex 0 index) / v.estimateSize = index * min 1 v.total := by
  have hpositive := v.positive
  have hrow : (index : ℚ) * v.estimateSize < v.total := by
    unfold total
    exact mul_lt_mul_of_pos_right (Nat.cast_lt.mpr hindex) hpositive
  have htotal : 0 < v.total := lt_of_le_of_lt (by positivity) hrow
  have hscrolls : v.physicalRange 0 ≠ 0 := by
    have hphysical : 0 < v.physical := lt_min htotal (by norm_num [maxScrollSize])
    unfold physicalRange
    rw [Nat.cast_zero, sub_zero, max_eq_right hphysical.le]
    exact hphysical.ne'
  rw [(offset_scroll_to_index index hscrolls).1, Nat.cast_zero, sub_zero]
  obtain hscaled | hexact := le_total v.total 1
  · rw [max_eq_left hscaled, div_one, min_eq_right (hrow.le.trans hscaled), min_eq_right hscaled,
      mul_right_comm, mul_div_cancel_right₀ _ hpositive.ne']
  · rw [max_eq_right hexact, min_eq_right ((div_le_one htotal).mpr hrow.le),
      div_mul_cancel₀ _ htotal.ne', mul_div_cancel_right₀ _ hpositive.ne', min_eq_left hexact,
      mul_one]

/-- A container without height shows nothing, and mounts the rows beyond the viewport. -/
theorem flat_mounted_iff {index : ℕ} (hindex : index < v.count) :
    Mounted (v.render 0 (v.scrollToIndex 0 index)) index ↔
      (index : ℤ) < max 0 (⌊index * min 1 v.total⌋ - v.overscan) + v.overscan * 2 := by
  have hfloor : ⌊index * min 1 v.total⌋ ≤ (index : ℤ) := by
    refine Int.floor_le_iff.mpr ?_
    have hle : index * min 1 v.total ≤ (index : ℚ) * 1 :=
      mul_le_mul_of_nonneg_left (min_le_left 1 v.total) (Nat.cast_nonneg index)
    push_cast
    linarith
  unfold render
  rw [mounted_iff, flat_offset hindex, Nat.cast_zero, zero_div, Int.ceil_zero]
  omega

/-- A row is mounted after it has been scrolled to exactly if it is reached. -/
theorem reaches_iff {clientHeight index : ℕ} (hindex : index < v.count) :
    Mounted (v.render clientHeight (v.scrollToIndex clientHeight index)) index ↔
      v.Reaches clientHeight index := by
  unfold Reaches
  split
  · rename_i hheight
    subst hheight
    exact flat_mounted_iff hindex
  · rename_i hheight
    by_cases hscrolls : v.physicalRange clientHeight = 0
    · rw [unscrolled_mounted_iff hindex hscrolls]
      exact (or_iff_right (not_not_intro hscrolls)).symm
    · exact iff_of_true (scrolled_mounted hindex hheight hscrolls) (.inl hscrolls)

end VirtualViewport

/-- A list shows every row it should exactly if what is mounted covers the viewport and scrolling
reaches every row. A container scrolls no further than its canvas. -/
theorem shows_rows_iff (v : VirtualViewport) (clientHeight : ℕ)
    (scrollTop : Set.Icc (0 : ℚ) (v.physicalRange clientHeight)) :
    v.ShowsRows clientHeight scrollTop ↔
      v.Covers clientHeight scrollTop ∧ ∀ index < v.count, v.Reaches clientHeight index := by
  constructor
  · intro hshows
    exact ⟨(VirtualViewport.covers_iff scrollTop.2).mp hshows.visible,
      fun index hindex => (VirtualViewport.reaches_iff hindex).mp (hshows.scrolled index hindex)⟩
  · intro ⟨hcovers, hreaches⟩
    exact ⟨(VirtualViewport.covers_iff scrollTop.2).mpr hcovers,
      fun _ _ htotal => VirtualViewport.range_ordered clientHeight htotal,
      fun index hindex => (VirtualViewport.reaches_iff hindex).mpr (hreaches index hindex)⟩

/-- Ten rows of 32 pixels, and none mounted beyond the viewport. -/
def tenRows : VirtualViewport := ⟨10, 32, 0, by norm_num⟩

/-- Where two rows fit and half a row has been scrolled, the third is visible and not mounted. -/
theorem half_row_scrolled : (16 : ℚ) ∈ Set.Icc 0 (tenRows.physicalRange 64) ∧
    tenRows.Visible (tenRows.logicalOffset 64 16) 64 2 ∧
      ¬ VirtualViewport.Mounted (tenRows.render 64 16) 2 ∧ ¬ tenRows.ShowsRows 64 16 := by
  have hscroll : (16 : ℚ) ∈ Set.Icc 0 (tenRows.physicalRange 64) :=
    ⟨by decide +kernel, by decide +kernel⟩
  have hoffset : tenRows.logicalOffset 64 16 = 16 := by decide +kernel
  have hrows : tenRows.render 64 16 = ⟨0, 2, 0, 320⟩ := by decide +kernel
  have hvisible : tenRows.Visible (tenRows.logicalOffset 64 16) 64 2 := by
    rw [hoffset]
    exact ⟨64, by decide +kernel, by decide +kernel, by decide +kernel, by decide +kernel⟩
  have hmissing : ¬ VirtualViewport.Mounted (tenRows.render 64 16) 2 := by
    rw [hrows]
    exact fun hmounted => absurd hmounted.2 (by decide)
  exact ⟨hscroll, hvisible, hmissing, fun hshows =>
    hmissing (hshows.visible 2 (by decide) hvisible)⟩

end PamDesktop.Workstation
