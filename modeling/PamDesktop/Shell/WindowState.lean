import Mathlib.Logic.Function.Basic
import PamDesktop.Foundations.Saturation

/-!
# Restoring the geometry of a window

`WindowStateStore`: what is recorded of a window, the monitor on which it is restored, and `remap`.
The scale of a monitor and the rounded products with it are a parameter, so that every result
below holds for any of them. `window_restored_reachable_iff` says when the restored window can be
grabbed.
-/

namespace PamDesktop.Shell

open Foundations

/-- A monitor, in physical pixels. -/
structure MonitorGeometry (Scale : Type) where
  name : String
  x : Int32
  y : Int32
  width : UInt32
  height : UInt32
  scale : Scale

/-- What is saved of a window; its position is relative to its monitor. -/
structure SavedWindowState (Scale : Type) where
  monitor : String
  relativeX : Int32
  relativeY : Int32
  width : UInt32
  height : UInt32
  scale : Scale
  maximized : Bool
  fullscreen : Bool

/-- What the shell applies to a window that it opens. -/
structure RestoredWindowState where
  x : Int32
  y : Int32
  width : UInt32
  height : UInt32
  maximized : Bool
  fullscreen : Bool

/-- The floating-point part of `record` and `remap`: `scale.max(0.25)`, and a saved extent or offset
times the ratio of the monitor's scale and the saved one, rounded and cast. -/
structure Scaling (Scale : Type) where
  atLeastQuarter : Scale → Scale
  extent : Scale → Scale → UInt32 → UInt32
  offset : Scale → Scale → Int32 → Int32

/-- The states by window id. -/
structure WindowStateStore (Scale : Type) where
  states : String → Option (SavedWindowState Scale)

variable {Scale : Type}

/-- `WindowStateStore::record`, as far as it is in memory: the state is inserted before the file is
written. -/
def WindowStateStore.record (scaling : Scaling Scale) (store : WindowStateStore Scale) (id : String)
    (monitor : MonitorGeometry Scale) (window : RestoredWindowState) : WindowStateStore Scale where
  states := Function.update store.states id (some {
    monitor := monitor.name
    relativeX := saturatingSubSigned window.x monitor.x
    relativeY := saturatingSubSigned window.y monitor.y
    width := window.width
    height := window.height
    scale := scaling.atLeastQuarter monitor.scale
    maximized := window.maximized
    fullscreen := window.fullscreen })

/-- How much of a window stays on its monitor. -/
def minVisible : Int32 := 64

/-- The bounds of the left edge: enough of the window remains on either side. -/
def horizontalBounds (monitor : MonitorGeometry Scale) (width : UInt32) : Int32 × Int32 :=
  (saturatingAddSigned (saturatingSubSigned monitor.x (signedOrMax width)) minVisible,
    saturatingSubSigned (saturatingAddSigned monitor.x (signedOrMax monitor.width)) minVisible)

/-- The bounds of the upper edge: the title bar is not above the monitor. -/
def verticalBounds (monitor : MonitorGeometry Scale) : Int32 × Int32 :=
  (monitor.y,
    saturatingSubSigned (saturatingAddSigned monitor.y (signedOrMax monitor.height)) minVisible)

/-- The last line of `remap` for one coordinate: an upper bound below the lower one is raised. -/
def place (proposed : Int32) (bounds : Int32 × Int32) : Except String Int32 :=
  clamp proposed bounds.1 (if bounds.2 < bounds.1 then bounds.1 else bounds.2)

/-- The larger of two unsigned words. -/
def larger (a b : UInt32) : UInt32 := if a < b then b else a

def remap (scaling : Scaling Scale) (state : SavedWindowState Scale)
    (monitor : MonitorGeometry Scale) : Except String RestoredWindowState := do
  let width ← clamp (scaling.extent monitor.scale state.scale state.width)
    320 (larger monitor.width 320)
  let height ← clamp (scaling.extent monitor.scale state.scale state.height)
    240 (larger monitor.height 240)
  let proposedX := saturatingAddSigned monitor.x
    (scaling.offset monitor.scale state.scale state.relativeX)
  let proposedY := saturatingAddSigned monitor.y
    (scaling.offset monitor.scale state.scale state.relativeY)
  let x ← place proposedX (horizontalBounds monitor width)
  let y ← place proposedY (verticalBounds monitor)
  return ⟨x, y, width, height, state.maximized, state.fullscreen⟩

/-- The monitor on which `restore` puts a window. -/
def monitorFor (state : SavedWindowState Scale) (monitors : List (MonitorGeometry Scale))
    (rememberMonitor : Bool) : Option (MonitorGeometry Scale) :=
  if rememberMonitor then
    (monitors.find? fun monitor => monitor.name == state.monitor).or monitors.head?
  else monitors.head?

/-- `WindowStateStore::restore`; the error is the panic of a clamp. -/
def WindowStateStore.restore (scaling : Scaling Scale) (store : WindowStateStore Scale)
    (id : String) (monitors : List (MonitorGeometry Scale)) (rememberMonitor : Bool) :
    Except String (Option RestoredWindowState) :=
  match store.states id with
  | none => .ok none
  | some state =>
      match monitorFor state monitors rememberMonitor with
      | none => .ok none
      | some monitor => some <$> remap scaling state monitor

/-! ## Where a window is put -/

/-- The monitor is large enough for a title bar and lies within the signed words. -/
structure MonitorGeometry.Ordinary (monitor : MonitorGeometry Scale) : Prop where
  wide : 64 ≤ monitor.width.toNat
  high : 64 ≤ monitor.height.toNat
  right : monitor.x.toInt + monitor.width.toNat ≤ 2147483648
  bottom : monitor.y.toInt + monitor.height.toNat ≤ 2147483648

/-- Enough of the window is on the monitor, and its title bar can be grabbed. -/
structure RestoredWindowState.Reachable (window : RestoredWindowState)
    (monitor : MonitorGeometry Scale) : Prop where
  left : monitor.x.toInt + 64 ≤ window.x.toInt + window.width.toNat
  right : window.x.toInt ≤ monitor.x.toInt + monitor.width.toNat - 64
  above : monitor.y.toInt ≤ window.y.toInt
  below : window.y.toInt ≤ monitor.y.toInt + monitor.height.toNat - 64

/-- The monitor does not end within 128 pixels of the smallest coordinate. -/
def MonitorGeometry.ClearOfMinimum (monitor : MonitorGeometry Scale) : Prop :=
  -2147483648 + 128 ≤ monitor.x.toInt + monitor.width.toNat

theorem min_visible_to_int : minVisible.toInt = 64 := rfl

/-- Bounds never cross once the upper one has been raised. -/
theorem place_between (proposed : Int32) (bounds : Int32 × Int32) :
    ∃ edge, place proposed bounds = .ok edge ∧ bounds.1.toInt ≤ edge.toInt ∧
      edge.toInt ≤ max bounds.1.toInt bounds.2.toInt ∧ place edge bounds = .ok edge := by
  unfold place
  split
  · rename_i hcrossed
    obtain ⟨edge, hedge, hlow, hhigh⟩ := clamp_between (Std.le_refl bounds.1)
    exact ⟨edge, hedge, Int32.le_iff_toInt_le.mp hlow,
      Int.le_trans (Int32.le_iff_toInt_le.mp hhigh) (Int.le_max_left ..),
      clamp_of_between hlow hhigh⟩
  · rename_i hordered
    obtain ⟨edge, hedge, hlow, hhigh⟩ := clamp_between (Std.not_lt.mp hordered)
    exact ⟨edge, hedge, Int32.le_iff_toInt_le.mp hlow,
      Int.le_trans (Int32.le_iff_toInt_le.mp hhigh) (Int.le_max_right ..),
      clamp_of_between hlow hhigh⟩

/-- An extent is clamped below by a constant and above by a bound that is not smaller. -/
theorem extent_between (extent monitorExtent smallest : UInt32) :
    ∃ result, clamp extent smallest (larger monitorExtent smallest) = .ok result ∧
      smallest.toNat ≤ result.toNat ∧
      clamp result smallest (larger monitorExtent smallest) = .ok result := by
  have hbounds : smallest ≤ larger monitorExtent smallest := by
    unfold larger
    split
    · exact Std.le_refl smallest
    · rename_i hordered
      exact Std.not_lt.mp hordered
  obtain ⟨result, hresult, hlow, hhigh⟩ :
      ∃ result, clamp extent smallest (larger monitorExtent smallest) = .ok result ∧
        smallest ≤ result ∧ result ≤ larger monitorExtent smallest := clamp_between hbounds
  exact ⟨result, hresult, hlow, clamp_of_between hlow hhigh⟩

/-- The window keeps every bound of `remap` on the monitor. -/
structure RestoredWindowState.Placed (window : RestoredWindowState)
    (monitor : MonitorGeometry Scale) : Prop where
  wide : 320 ≤ window.width.toNat
  left : (horizontalBounds monitor window.width).1.toInt ≤ window.x.toInt
  right : window.x.toInt ≤ max (horizontalBounds monitor window.width).1.toInt
    (horizontalBounds monitor window.width).2.toInt
  above : monitor.y.toInt ≤ window.y.toInt
  below : window.y.toInt ≤ max monitor.y.toInt (verticalBounds monitor).2.toInt
  width : clamp window.width 320 (larger monitor.width 320) = .ok window.width
  height : clamp window.height 240 (larger monitor.height 240) = .ok window.height
  x : place window.x (horizontalBounds monitor window.width) = .ok window.x
  y : place window.y (verticalBounds monitor) = .ok window.y

/-- What `remap` gives, with the bounds that its edges keep. -/
theorem remap_spec (scaling : Scaling Scale) (state : SavedWindowState Scale)
    (monitor : MonitorGeometry Scale) :
    ∃ window, remap scaling state monitor = .ok window ∧ window.Placed monitor := by
  obtain ⟨width, hwidth, hwide, hwidthkept⟩ :=
    extent_between (scaling.extent monitor.scale state.scale state.width) monitor.width 320
  obtain ⟨height, hheight, -, hheightkept⟩ :=
    extent_between (scaling.extent monitor.scale state.scale state.height) monitor.height 240
  obtain ⟨x, hx, hleft, hright, hxkept⟩ :=
    place_between (saturatingAddSigned monitor.x
      (scaling.offset monitor.scale state.scale state.relativeX)) (horizontalBounds monitor width)
  obtain ⟨y, hy, habove, hbelow, hykept⟩ :=
    place_between (saturatingAddSigned monitor.y
      (scaling.offset monitor.scale state.scale state.relativeY)) (verticalBounds monitor)
  refine ⟨⟨x, y, width, height, state.maximized, state.fullscreen⟩, ?_,
    ⟨hwide, hleft, hright, habove, hbelow, hwidthkept, hheightkept, hxkept, hykept⟩⟩
  simp only [remap, hwidth, hheight, hx, hy, bind, Except.bind, pure, Except.pure]

/-- The edges of an ordinary monitor meet the bounds unless the left one saturates beyond it. -/
theorem remap_reachable_iff (scaling : Scaling Scale) (state : SavedWindowState Scale)
    (monitor : MonitorGeometry Scale) (hmonitor : monitor.Ordinary) :
    ∃ window, remap scaling state monitor = .ok window ∧
      (window.Reachable monitor ↔ monitor.ClearOfMinimum) := by
  obtain ⟨window, hwindow, hplaced⟩ := remap_spec scaling state monitor
  refine ⟨window, hwindow, ?_⟩
  have hwide := hplaced.wide
  have hleft := hplaced.left
  have hright := hplaced.right
  have hbelow := hplaced.below
  have hx := signed_range monitor.x
  have hy := signed_range monitor.y
  have hwindowx := signed_range window.x
  have hmonitorwide := hmonitor.wide
  have hmonitorhigh := hmonitor.high
  have hmonitorright := hmonitor.right
  have hmonitorbottom := hmonitor.bottom
  simp only [horizontalBounds, verticalBounds, saturating_add_to_int, saturating_sub_to_int,
    signed_or_max_to_int, min_visible_to_int] at hleft hright hbelow
  constructor
  · intro hreachable
    have hinside := hreachable.right
    show -2147483648 + 128 ≤ monitor.x.toInt + monitor.width.toNat
    -- a monitor that ends before this lies left of the smallest coordinate plus the window's width
    omega
  · intro hclear
    have hclear' : -2147483648 + 128 ≤ monitor.x.toInt + monitor.width.toNat := hclear
    constructor
    · omega
    · omega
    · exact hplaced.above
    · omega

/-- A window is restored on one of the monitors whenever there is one. -/
theorem monitor_for_mem (state : SavedWindowState Scale) (monitors : List (MonitorGeometry Scale))
    (rememberMonitor : Bool) (hsome : monitors ≠ []) :
    ∃ monitor, monitorFor state monitors rememberMonitor = some monitor ∧ monitor ∈ monitors := by
  obtain ⟨first, rest, rfl⟩ := List.exists_cons_of_ne_nil hsome
  unfold monitorFor
  split
  · cases hfind : (first :: rest).find? fun monitor => monitor.name == state.monitor with
    | none => exact ⟨first, rfl, List.mem_cons_self⟩
    | some monitor => exact ⟨monitor, rfl, List.mem_of_find?_eq_some hfind⟩
  · exact ⟨first, rfl, List.mem_cons_self⟩

/-- No clamp of a restoration has crossed bounds, and the window can be reached exactly if the
monitor it is put on is clear of the smallest coordinate. -/
theorem window_restored_reachable_iff (scaling : Scaling Scale) (store : WindowStateStore Scale)
    (id : String) (monitors : List (MonitorGeometry Scale)) (rememberMonitor : Bool)
    (state : SavedWindowState Scale) (hstate : store.states id = some state)
    (hsome : monitors ≠ []) (hordinary : ∀ monitor ∈ monitors, monitor.Ordinary) :
    ∃ monitor window, monitorFor state monitors rememberMonitor = some monitor ∧
      store.restore scaling id monitors rememberMonitor = .ok (some window) ∧
      (window.Reachable monitor ↔ monitor.ClearOfMinimum) := by
  obtain ⟨monitor, hmonitor, hmem⟩ := monitor_for_mem state monitors rememberMonitor hsome
  obtain ⟨window, hwindow, hreachable⟩ :=
    remap_reachable_iff scaling state monitor (hordinary monitor hmem)
  refine ⟨monitor, window, hmonitor, ?_, hreachable⟩
  simp only [WindowStateStore.restore, hstate, hmonitor, hwindow]
  rfl

/-- The products with a ratio of one, as they are on monitors that all have the scale one. -/
def unscaled : Scaling Unit where
  atLeastQuarter scale := scale
  extent _ _ extent := extent
  offset _ _ offset := offset

/-- A store with one window, saved near the right edge of a monitor that has been removed. -/
def savedOnce : WindowStateStore Unit where
  states := fun id => if id = "main" then
    some ⟨"removed", 1780, 900, 1000, 800, (), true, false⟩ else none

/-- On an ordinary screen the saved window of a removed monitor can be reached. -/
theorem primary_window_reachable :
    ∃ monitor window, monitorFor ⟨"removed", 1780, 900, 1000, 800, (), true, false⟩
        [(⟨"primary", 0, 0, 1280, 720, ()⟩ : MonitorGeometry Unit)] true = some monitor ∧
      savedOnce.restore unscaled "main" [⟨"primary", 0, 0, 1280, 720, ()⟩] true =
        .ok (some window) ∧ (window.Reachable monitor ↔ monitor.ClearOfMinimum) :=
  window_restored_reachable_iff unscaled savedOnce "main"
    [⟨"primary", 0, 0, 1280, 720, ()⟩] true _ rfl (List.cons_ne_nil _ _) (by
      intro monitor hmonitor
      rw [List.mem_singleton.mp hmonitor]
      exact ⟨by decide, by decide, by decide, by decide⟩)

/-- Left of a narrow monitor at the smallest coordinate there is no room: the saturated lower bound
of the left edge lies to the right of the monitor's last visible column. -/
theorem leftmost_window_out_of_reach :
    ∃ window, savedOnce.restore unscaled "main" [⟨"left", -2147483648, 0, 64, 720, ()⟩] true =
        .ok (some window) ∧
      window.x = -2147483648 + 64 ∧
      (⟨"left", -2147483648, 0, 64, 720, ()⟩ : MonitorGeometry Unit).Ordinary ∧
      ¬window.Reachable (⟨"left", -2147483648, 0, 64, 720, ()⟩ : MonitorGeometry Unit) := by
  refine ⟨⟨-2147483648 + 64, 656, 320, 720, true, false⟩, rfl, rfl,
    ⟨by decide, by decide, by decide, by decide⟩, ?_⟩
  intro hreachable
  exact absurd hreachable.right (by decide)

/-! ## A window that is recorded again -/

/-- At a scale for which the ratio is one, the rounded products are exact. -/
structure Scaling.Exact (scaling : Scaling Scale) (scale : Scale) : Prop where
  extent : ∀ extent, scaling.extent scale (scaling.atLeastQuarter scale) extent = extent
  offset : ∀ offset, scaling.offset scale (scaling.atLeastQuarter scale) offset = offset

/-- An offset that neither saturates is added back. -/
theorem saturating_add_sub {edge origin : Int32}
    (hlow : -2147483648 ≤ edge.toInt - origin.toInt)
    (hhigh : edge.toInt - origin.toInt ≤ 2147483647) :
    saturatingAddSigned origin (saturatingSubSigned edge origin) = edge := by
  apply Int32.toInt.inj
  have hedge := signed_range edge
  simp only [saturating_add_to_int, saturating_sub_to_int]
  omega

/-- A window that keeps the bounds of a monitor is restored there as it was recorded. -/
theorem placed_window_kept (scaling : Scaling Scale) (store : WindowStateStore Scale) (id : String)
    (monitors : List (MonitorGeometry Scale)) (rememberMonitor : Bool)
    (monitor : MonitorGeometry Scale) (window : RestoredWindowState)
    (hexact : scaling.Exact monitor.scale) (hplaced : window.Placed monitor)
    (hmonitor : ∀ state, (store.record scaling id monitor window).states id = some state →
      monitorFor state monitors rememberMonitor = some monitor) :
    (store.record scaling id monitor window).restore scaling id monitors rememberMonitor =
      .ok (some window) := by
  have hx := signed_range monitor.x
  have hy := signed_range monitor.y
  have hleft := hplaced.left
  have hright := hplaced.right
  have habove := hplaced.above
  have hbelow := hplaced.below
  simp only [horizontalBounds, verticalBounds, saturating_add_to_int, saturating_sub_to_int,
    signed_or_max_to_int, min_visible_to_int] at hleft hright hbelow
  have haddx : saturatingAddSigned monitor.x (saturatingSubSigned window.x monitor.x) = window.x :=
    saturating_add_sub (by omega) (by omega)
  have haddy : saturatingAddSigned monitor.y (saturatingSubSigned window.y monitor.y) = window.y :=
    saturating_add_sub (by omega) (by omega)
  have hrecorded : (store.record scaling id monitor window).states id = some {
      monitor := monitor.name
      relativeX := saturatingSubSigned window.x monitor.x
      relativeY := saturatingSubSigned window.y monitor.y
      width := window.width
      height := window.height
      scale := scaling.atLeastQuarter monitor.scale
      maximized := window.maximized
      fullscreen := window.fullscreen } := Function.update_self ..
  simp only [WindowStateStore.restore, hrecorded, hmonitor _ hrecorded, remap, hexact.extent,
    hexact.offset, hplaced.width, hplaced.height, haddx, haddy, hplaced.x, hplaced.y, bind,
    Except.bind, pure, Except.pure]
  rfl

/-- Recording what `restore` gave and restoring it on the same monitor changes nothing. -/
theorem restore_stable (scaling : Scaling Scale) (store : WindowStateStore Scale) (id : String)
    (monitors : List (MonitorGeometry Scale)) (rememberMonitor : Bool)
    (state : SavedWindowState Scale) (monitor : MonitorGeometry Scale)
    (window : RestoredWindowState) (hexact : scaling.Exact monitor.scale)
    (hremap : remap scaling state monitor = .ok window)
    (hmonitor : ∀ state, (store.record scaling id monitor window).states id = some state →
      monitorFor state monitors rememberMonitor = some monitor) :
    (store.record scaling id monitor window).restore scaling id monitors rememberMonitor =
      .ok (some window) := by
  obtain ⟨placed, hplaced, hbounds⟩ := remap_spec scaling state monitor
  obtain rfl : placed = window := Except.ok.inj (hplaced.symm.trans hremap)
  exact placed_window_kept scaling store id monitors rememberMonitor monitor placed hexact hbounds
    hmonitor

end PamDesktop.Shell
