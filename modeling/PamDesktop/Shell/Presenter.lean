import Mathlib.Algebra.Order.Ring.Nat
import Mathlib.Data.List.GetD

/-!
# Presenting software frames

`SoftwarePresenter` copies each frame of the web view to the surface of a window. With
`dirty_regions` it presents only the rectangle in which the frame differs from `previous`, the last
frame that it has copied. `presented_iff` says for which attempts the surface shows every frame
that is presented, whatever the frames are.
-/

namespace PamDesktop.Shell

/-! ## Frames -/

/-- The words of an image: `chunks_exact(4)`, the colours of each pixel without its alpha. -/
def imagePixels : List UInt8 → List UInt32
  | red :: green :: blue :: _ :: rest =>
      ((red.toUInt32 <<< 16) ||| (green.toUInt32 <<< 8) ||| blue.toUInt32) :: imagePixels rest
  | _ => []

/-- `softbuffer::Rect`. -/
structure Rect where
  x : Nat
  y : Nat
  width : Nat
  height : Nat
deriving DecidableEq

/-- The pixel at this index of an image of this width is inside the rectangle. -/
def Rect.Contains (rect : Rect) (width index : Nat) : Prop :=
  rect.x ≤ index % width ∧ index % width < rect.x + rect.width ∧
    rect.y ≤ index / width ∧ index / width < rect.y + rect.height

instance (rect : Rect) (width index : Nat) : Decidable (rect.Contains width index) :=
  inferInstanceAs (Decidable (_ ∧ _))

/-- The extent of what has changed so far. -/
structure Bounds where
  minX : Nat
  minY : Nat
  maxX : Nat
  maxY : Nat

/-- The loop of `changed_bounds`, from this index on. -/
def changedFrom (width : Nat) : Nat → Bounds → List (UInt32 × UInt32) → Bounds
  | _, bounds, [] => bounds
  | index, bounds, (before, after) :: rest =>
      if before = after then changedFrom width (index + 1) bounds rest
      else
        let x := index % width
        let y := index / width
        changedFrom width (index + 1)
          ⟨min bounds.minX x, min bounds.minY y, max bounds.maxX x, max bounds.maxY y⟩ rest

/-- `changed_bounds`. -/
def changedBounds (previous current : List UInt32) (width height : Nat) : Option Rect :=
  if previous.length ≠ current.length ∨ previous.isEmpty then none
  else
    let bounds := changedFrom width 0 ⟨width, height, 0, 0⟩ (previous.zip current)
    if bounds.minX ≤ bounds.maxX then
      some ⟨bounds.minX, bounds.minY, bounds.maxX - bounds.minX + 1,
        bounds.maxY - bounds.minY + 1⟩
    else none

/-! ## The surface -/

/-- What the window shows. -/
structure Surface where
  width : Nat
  height : Nat
  pixels : List UInt32

/-- Another size clears the surface. -/
def Surface.resize (surface : Surface) (width height : Nat) : Surface :=
  if surface.width = width ∧ surface.height = height then surface
  else ⟨width, height, List.replicate (width * height) 0⟩

/-- `Buffer::present`. -/
def Surface.present (surface : Surface) (buffer : List UInt32) : Surface :=
  { surface with pixels := buffer }

/-- `Buffer::present_with_damage`: only what is inside the rectangle is overwritten. -/
def Surface.presentWithDamage (surface : Surface) (rect : Rect) (buffer : List UInt32) :
    Surface :=
  { surface with
    pixels := (surface.pixels.zip buffer).mapIdx fun index pixel =>
      if rect.Contains surface.width index then pixel.2 else pixel.1 }

/-! ## The presenter -/

/-- `SoftwarePresenter`, without the context that it reads frames from. -/
structure SoftwarePresenter where
  surface : Surface
  previous : List UInt32
  dirtyRegions : Bool

/-- `SoftwarePresenter::new`, with a surface that has no size yet. -/
def SoftwarePresenter.new (dirtyRegions : Bool) : SoftwarePresenter :=
  ⟨⟨0, 0, []⟩, [], dirtyRegions⟩

/-- What an attempt to present meets: the size of the context, whether Servo exposes the frame, and
what becomes of the calls that may fail. -/
structure Attempt where
  width : Nat
  height : Nat
  exposed : Bool
  resized : Except String Unit
  mapped : Except String Unit
  shown : Except String Unit

/-- An attempt with the image of the context, which has its size. -/
structure Frame where
  attempt : Attempt
  image : List UInt8
  whole : image.length = 4 * (attempt.width * attempt.height)

/-- What is presented: the whole frame if there is no damage. -/
def SoftwarePresenter.damage (presenter : SoftwarePresenter) (frame : Frame) : Option Rect :=
  if presenter.dirtyRegions then
    changedBounds presenter.previous (imagePixels frame.image) frame.attempt.width
      frame.attempt.height
  else none

/-- `SoftwarePresenter::present`. -/
def SoftwarePresenter.present (presenter : SoftwarePresenter) (frame : Frame) :
    Except String Unit × SoftwarePresenter :=
  let attempt := frame.attempt
  if attempt.width = 0 then (.error "software frame width is zero", presenter)
  else if attempt.height = 0 then (.error "software frame height is zero", presenter)
  else if 2 ^ 31 ≤ attempt.width then (.error "software frame is too wide", presenter)
  else if 2 ^ 31 ≤ attempt.height then (.error "software frame is too tall", presenter)
  else if !attempt.exposed then (.error "Servo did not expose the software frame", presenter)
  else
    let pixels := imagePixels frame.image
    match attempt.resized with
    | .error error => (.error ("cannot resize software window surface: " ++ error), presenter)
    | .ok () =>
        let surface := presenter.surface.resize attempt.width attempt.height
        match attempt.mapped with
        | .error error =>
            (.error ("cannot map software window buffer: " ++ error),
              { presenter with surface := surface })
        | .ok () =>
            match presenter.damage frame, attempt.shown with
            | some rect, .ok () =>
                (.ok (), { presenter with
                  surface := surface.presentWithDamage rect pixels, previous := pixels })
            | some _, .error error =>
                (.error ("cannot present dirty software frame: " ++ error),
                  { presenter with surface := surface, previous := pixels })
            | none, .ok () =>
                (.ok (), { presenter with
                  surface := surface.present pixels, previous := pixels })
            | none, .error error =>
                (.error ("cannot present software frame: " ++ error),
                  { presenter with surface := surface, previous := pixels })

/-- The surface shows the frame: it has its size and its pixels, and wherever it differed from the
frame it has been overwritten. -/
structure SoftwarePresenter.Shows (presenter : SoftwarePresenter) (frame : Frame) : Prop where
  size : (presenter.present frame).2.surface.width = frame.attempt.width ∧
    (presenter.present frame).2.surface.height = frame.attempt.height
  pixels : (presenter.present frame).2.surface.pixels = imagePixels frame.image
  damaged : ∀ rect, presenter.damage frame = some rect → ∀ index,
    (presenter.surface.resize frame.attempt.width frame.attempt.height).pixels[index]? ≠
      (imagePixels frame.image)[index]? → rect.Contains frame.attempt.width index

/-- Every frame that is presented is shown, one after the other. -/
def SoftwarePresenter.ShowsAll (presenter : SoftwarePresenter) : List Frame → Prop
  | [] => True
  | frame :: rest =>
      ((presenter.present frame).1 = .ok () → presenter.Shows frame) ∧
        (presenter.present frame).2.ShowsAll rest

/-! ## What has changed -/

theorem image_pixels_length (image : List UInt8) :
    (imagePixels image).length = image.length / 4 := by
  induction image using imagePixels.induct with
  | case1 red green blue alpha rest ih =>
      rw [imagePixels, List.length_cons, ih]
      simp only [List.length_cons]
      omega
  | case2 image hshort =>
      rw [imagePixels]
      · match image, hshort with
        | [], _ => simp
        | [_], _ => simp
        | [_, _], _ => simp
        | [_, _, _], _ => simp
        | _ :: _ :: _ :: _ :: _, hshort => exact (hshort _ _ _ _ _ rfl).elim
      · exact hshort

theorem Frame.pixels_length (frame : Frame) :
    (imagePixels frame.image).length = frame.attempt.width * frame.attempt.height := by
  rw [image_pixels_length, frame.whole]
  omega

/-- The bounds only grow. -/
theorem changed_from_grows (width index : Nat) (bounds : Bounds) (pairs : List (UInt32 × UInt32)) :
    (changedFrom width index bounds pairs).minX ≤ bounds.minX ∧
      (changedFrom width index bounds pairs).minY ≤ bounds.minY ∧
      bounds.maxX ≤ (changedFrom width index bounds pairs).maxX ∧
      bounds.maxY ≤ (changedFrom width index bounds pairs).maxY := by
  induction pairs generalizing index bounds with
  | nil => exact ⟨le_rfl, le_rfl, le_rfl, le_rfl⟩
  | cons pair rest ih =>
      obtain ⟨before, after⟩ := pair
      rw [changedFrom]
      split
      · exact ih _ _
      · obtain ⟨hminX, hminY, hmaxX, hmaxY⟩ := ih (index + 1) ⟨min bounds.minX (index % width),
          min bounds.minY (index / width), max bounds.maxX (index % width),
          max bounds.maxY (index / width)⟩
        exact ⟨hminX.trans (min_le_left _ _), hminY.trans (min_le_left _ _),
          (le_max_left _ _).trans hmaxX, (le_max_left _ _).trans hmaxY⟩

/-- Every pixel that differs is inside the bounds. -/
theorem changed_from_covers (width index : Nat) (bounds : Bounds) {offset : Nat}
    {pairs : List (UInt32 × UInt32)} {before after : UInt32}
    (h : pairs[offset]? = some (before, after)) (hne : before ≠ after) :
    (changedFrom width index bounds pairs).minX ≤ (index + offset) % width ∧
      (changedFrom width index bounds pairs).minY ≤ (index + offset) / width ∧
      (index + offset) % width ≤ (changedFrom width index bounds pairs).maxX ∧
      (index + offset) / width ≤ (changedFrom width index bounds pairs).maxY := by
  induction pairs generalizing index offset bounds with
  | nil => cases h
  | cons pair rest ih =>
      obtain ⟨old, new⟩ := pair
      cases offset with
      | zero =>
          cases h
          rw [changedFrom, if_neg hne, Nat.add_zero]
          obtain ⟨hminX, hminY, hmaxX, hmaxY⟩ := changed_from_grows width (index + 1)
            ⟨min bounds.minX (index % width), min bounds.minY (index / width),
              max bounds.maxX (index % width), max bounds.maxY (index / width)⟩ rest
          exact ⟨hminX.trans (min_le_right _ _), hminY.trans (min_le_right _ _),
            (le_max_right _ _).trans hmaxX, (le_max_right _ _).trans hmaxY⟩
      | succ offset =>
          rw [List.getElem?_cons_succ] at h
          rw [changedFrom]
          have hindex : index + (offset + 1) = index + 1 + offset := by omega
          rw [hindex]
          split
          · exact ih _ _ h
          · exact ih _ _ h

/-- Pixels that are the same leave the bounds alone. -/
theorem changed_from_same {width index : Nat} {bounds : Bounds} {pairs : List (UInt32 × UInt32)}
    (h : ∀ pair ∈ pairs, pair.1 = pair.2) : changedFrom width index bounds pairs = bounds := by
  induction pairs generalizing index with
  | nil => rfl
  | cons pair rest ih =>
      obtain ⟨before, after⟩ := pair
      rw [changedFrom, if_pos (h _ List.mem_cons_self)]
      exact ih fun other hother => h other (List.mem_cons_of_mem _ hother)

section Changed

variable {previous current : List UInt32} {width height : Nat} {rect : Rect}

/-- The rectangle contains every pixel that differs. -/
theorem changed_contains (h : changedBounds previous current width height = some rect)
    {index : Nat} (hne : previous[index]? ≠ current[index]?) : rect.Contains width index := by
  unfold changedBounds at h
  split at h
  · cases h
  · rename_i hsame
    rw [not_or, not_not] at hsame
    dsimp only at h
    split at h
    · rename_i hbounds
      cases h
      have hlength := hsame.1
      have hindex : index < previous.length := by
        by_contra hbeyond
        refine hne ?_
        rw [List.getElem?_eq_none (by omega), List.getElem?_eq_none (by omega)]
      have hpair : (previous.zip current)[index]? =
          some (previous[index], current[index]) := by
        rw [List.getElem?_zip_eq_some]
        exact ⟨List.getElem?_eq_getElem hindex, List.getElem?_eq_getElem _⟩
      have hdiffers : previous[index] ≠ current[index] := by
        rwa [List.getElem?_eq_getElem hindex, List.getElem?_eq_getElem (hlength ▸ hindex),
          Ne, Option.some_inj] at hne
      obtain ⟨hminX, hminY, hmaxX, hmaxY⟩ :=
        changed_from_covers width 0 ⟨width, height, 0, 0⟩ hpair hdiffers
      rw [Nat.zero_add] at hminX hminY hmaxX hmaxY
      unfold Rect.Contains
      dsimp only
      omega
    · cases h

/-- There is no rectangle for frames that do not differ. -/
theorem changed_differs (hwidth : 0 < width)
    (h : changedBounds previous current width height = some rect) :
    previous.length = current.length ∧ previous ≠ current := by
  unfold changedBounds at h
  split at h
  · cases h
  · rename_i hsame
    rw [not_or, not_not] at hsame
    refine ⟨hsame.1, ?_⟩
    rintro rfl
    dsimp only at h
    rw [changed_from_same] at h
    · rw [if_neg (by dsimp only; omega)] at h
      cases h
    · intro pair hpair
      rw [List.zip, List.zipWith_self] at hpair
      obtain ⟨_, _, rfl⟩ := List.mem_map.mp hpair
      rfl

end Changed

/-! ## What is drawn -/

/-- Overwriting shows the new pixels if every pixel that differs is inside the rectangle. -/
theorem overwrite_eq {width : Nat} {rect : Rect} {old new : List UInt32}
    (hlength : old.length = new.length)
    (h : ∀ index, old[index]? ≠ new[index]? → rect.Contains width index) :
    ((old.zip new).mapIdx fun index pixel =>
      if rect.Contains width index then pixel.2 else pixel.1) = new := by
  refine List.ext_getElem? fun index => ?_
  rw [List.getElem?_mapIdx]
  by_cases hindex : index < old.length
  · have hnew : index < new.length := hlength ▸ hindex
    have hpair : (old.zip new)[index]? = some (old[index], new[index]) :=
      List.getElem?_zip_eq_some.mpr
        ⟨List.getElem?_eq_getElem hindex, List.getElem?_eq_getElem hnew⟩
    rw [hpair, Option.map_some, List.getElem?_eq_getElem hnew]
    split
    · rfl
    · rename_i houtside
      have hsame := not_not.mp (mt (h index) houtside)
      rw [List.getElem?_eq_getElem hindex, List.getElem?_eq_getElem hnew] at hsame
      exact hsame
  · rw [List.getElem?_eq_none (by rw [List.length_zip]; omega),
      List.getElem?_eq_none (by omega)]
    rfl

/-- Overwriting leaves what is outside the rectangle. -/
theorem overwrite_outside {width : Nat} {rect : Rect} {old new : List UInt32}
    (hlength : old.length = new.length) {index : Nat} (h : ¬ rect.Contains width index) :
    ((old.zip new).mapIdx fun index pixel =>
      if rect.Contains width index then pixel.2 else pixel.1)[index]? = old[index]? := by
  rw [List.getElem?_mapIdx]
  by_cases hindex : index < old.length
  · have hnew : index < new.length := hlength ▸ hindex
    have hpair : (old.zip new)[index]? = some (old[index], new[index]) :=
      List.getElem?_zip_eq_some.mpr
        ⟨List.getElem?_eq_getElem hindex, List.getElem?_eq_getElem hnew⟩
    rw [hpair, Option.map_some, if_neg h, List.getElem?_eq_getElem hindex]
  · rw [List.getElem?_eq_none (by rw [List.length_zip]; omega),
      List.getElem?_eq_none (by omega)]
    rfl

/-- What an attempt comes to. -/
inductive Stage where
  | refused | unmapped | unshown | shown
deriving DecidableEq

/-- The attempt is refused before the surface is resized. -/
def Attempt.Refused (attempt : Attempt) : Prop :=
  attempt.width = 0 ∨ attempt.height = 0 ∨ 2 ^ 31 ≤ attempt.width ∨ 2 ^ 31 ≤ attempt.height ∨
    attempt.exposed = false

instance (attempt : Attempt) : Decidable attempt.Refused :=
  inferInstanceAs (Decidable (_ ∨ _))

/-- How far an attempt comes. -/
def Attempt.stage (attempt : Attempt) : Stage :=
  if attempt.Refused then .refused
  else
    match attempt.resized, attempt.mapped, attempt.shown with
    | .error _, _, _ => .refused
    | .ok (), .error _, _ => .unmapped
    | .ok (), .ok (), .error _ => .unshown
    | .ok (), .ok (), .ok () => .shown

namespace SoftwarePresenter

variable {presenter : SoftwarePresenter} {frame : Frame}

/-- The surface after the size of the frame is set. -/
def resized (presenter : SoftwarePresenter) (frame : Frame) : Surface :=
  presenter.surface.resize frame.attempt.width frame.attempt.height

/-- The surface after the frame is presented. -/
def drawn (presenter : SoftwarePresenter) (frame : Frame) : Surface :=
  match presenter.damage frame with
  | some rect => (presenter.resized frame).presentWithDamage rect (imagePixels frame.image)
  | none => (presenter.resized frame).present (imagePixels frame.image)

/-- What `present` does at each stage. -/
theorem present_stage (presenter : SoftwarePresenter) (frame : Frame) :
    match frame.attempt.stage with
    | .refused => ∃ error, presenter.present frame = (.error error, presenter)
    | .unmapped => ∃ error, presenter.present frame =
        (.error error, { presenter with surface := presenter.resized frame })
    | .unshown => ∃ error, presenter.present frame =
        (.error error, { presenter with
          surface := presenter.resized frame, previous := imagePixels frame.image })
    | .shown => presenter.present frame =
        (.ok (), { presenter with
          surface := presenter.drawn frame, previous := imagePixels frame.image }) := by
  unfold present Attempt.stage
  by_cases hrefused : frame.attempt.Refused
  · rw [if_pos hrefused]
    dsimp only
    split
    · exact ⟨_, rfl⟩
    split
    · exact ⟨_, rfl⟩
    split
    · exact ⟨_, rfl⟩
    split
    · exact ⟨_, rfl⟩
    split
    · exact ⟨_, rfl⟩
    · rename_i hwidth hheight hwide htall hexposed
      rw [Bool.not_eq_true, Bool.not_eq_false'] at hexposed
      obtain h | h | h | h | h := hrefused
      · exact absurd h hwidth
      · exact absurd h hheight
      · exact absurd h hwide
      · exact absurd h htall
      · rw [h] at hexposed
        cases hexposed
  · rw [if_neg hrefused]
    unfold Attempt.Refused at hrefused
    simp only [not_or] at hrefused
    obtain ⟨hwidth, hheight, hwide, htall, hexposed⟩ := hrefused
    dsimp only
    rw [if_neg hwidth, if_neg hheight, if_neg hwide, if_neg htall, if_neg (by simpa using hexposed)]
    cases frame.attempt.resized with
    | error error => exact ⟨_, rfl⟩
    | ok _ =>
        cases frame.attempt.mapped with
        | error error => exact ⟨_, rfl⟩
        | ok _ =>
            unfold drawn
            cases frame.attempt.shown with
            | error error =>
                cases presenter.damage frame with
                | none => exact ⟨_, rfl⟩
                | some rect => exact ⟨_, rfl⟩
            | ok _ =>
                cases presenter.damage frame with
                | none => rfl
                | some rect => rfl

theorem present_refused (presenter : SoftwarePresenter) {frame : Frame}
    (h : frame.attempt.stage = .refused) :
    ∃ error, presenter.present frame = (.error error, presenter) := by
  have hpresent := presenter.present_stage frame
  rwa [h] at hpresent

theorem present_unmapped (presenter : SoftwarePresenter) {frame : Frame}
    (h : frame.attempt.stage = .unmapped) :
    ∃ error, presenter.present frame =
      (.error error, { presenter with surface := presenter.resized frame }) := by
  have hpresent := presenter.present_stage frame
  rwa [h] at hpresent

theorem present_unshown (presenter : SoftwarePresenter) {frame : Frame}
    (h : frame.attempt.stage = .unshown) :
    ∃ error, presenter.present frame = (.error error, { presenter with
      surface := presenter.resized frame, previous := imagePixels frame.image }) := by
  have hpresent := presenter.present_stage frame
  rwa [h] at hpresent

theorem present_shown (presenter : SoftwarePresenter) {frame : Frame}
    (h : frame.attempt.stage = .shown) :
    presenter.present frame = (.ok (), { presenter with
      surface := presenter.drawn frame, previous := imagePixels frame.image }) := by
  have hpresent := presenter.present_stage frame
  rwa [h] at hpresent

theorem present_ok (h : (presenter.present frame).1 = .ok ()) : frame.attempt.stage = .shown := by
  cases hstage : frame.attempt.stage with
  | shown => rfl
  | refused =>
      obtain ⟨error, hpresent⟩ := present_refused presenter hstage
      rw [hpresent] at h
      cases h
  | unmapped =>
      obtain ⟨error, hpresent⟩ := present_unmapped presenter hstage
      rw [hpresent] at h
      cases h
  | unshown =>
      obtain ⟨error, hpresent⟩ := present_unshown presenter hstage
      rw [hpresent] at h
      cases h

theorem present_dirty (presenter : SoftwarePresenter) (frame : Frame) :
    (presenter.present frame).2.dirtyRegions = presenter.dirtyRegions := by
  cases hstage : frame.attempt.stage with
  | refused =>
      obtain ⟨error, hpresent⟩ := present_refused presenter hstage
      rw [hpresent]
  | unmapped =>
      obtain ⟨error, hpresent⟩ := present_unmapped presenter hstage
      rw [hpresent]
  | unshown =>
      obtain ⟨error, hpresent⟩ := present_unshown presenter hstage
      rw [hpresent]
  | shown => rw [present_shown presenter hstage]

theorem shown_size {attempt : Attempt} (h : attempt.stage = .shown) :
    0 < attempt.width ∧ 0 < attempt.height := by
  unfold Attempt.stage at h
  split at h
  · cases h
  · rename_i hrefused
    unfold Attempt.Refused at hrefused
    simp only [not_or] at hrefused
    omega

theorem resize_size (surface : Surface) (width height : Nat) :
    (surface.resize width height).width = width ∧
      (surface.resize width height).height = height := by
  unfold Surface.resize
  split
  · assumption
  · exact ⟨rfl, rfl⟩

theorem resize_length {surface : Surface} (width height : Nat)
    (h : surface.pixels.length = surface.width * surface.height) :
    (surface.resize width height).pixels.length = width * height := by
  unfold Surface.resize
  split
  · rename_i hsame
    rw [h, hsame.1, hsame.2]
  · exact List.length_replicate

/-- A frame is shown if wherever the surface differs from it, the surface is overwritten. -/
theorem shows_of_damaged (hshown : frame.attempt.stage = .shown)
    (hlength : presenter.surface.pixels.length =
      presenter.surface.width * presenter.surface.height)
    (h : ∀ rect, presenter.damage frame = some rect → ∀ index,
      (presenter.resized frame).pixels[index]? ≠ (imagePixels frame.image)[index]? →
        rect.Contains frame.attempt.width index) : presenter.Shows frame := by
  have hpresent := present_shown presenter hshown
  obtain ⟨hwidth, hheight⟩ := resize_size presenter.surface frame.attempt.width frame.attempt.height
  constructor
  · rw [hpresent]
    dsimp only
    unfold drawn
    split
    · exact ⟨hwidth, hheight⟩
    · exact ⟨hwidth, hheight⟩
  · rw [hpresent]
    dsimp only
    unfold drawn
    split
    · rename_i rect hdamage
      refine overwrite_eq ?_ fun index hne => ?_
      · rw [frame.pixels_length]
        exact resize_length _ _ hlength
      · rw [resized, hwidth]
        exact h rect hdamage index hne
    · rfl
  · exact h

/-! ## Keeping in step -/

/-- What the attempts so far say of a presenter: the number of pixels in `previous`, the size of the
surface, and whether the surface holds `previous`. -/
structure Sync where
  count : Nat
  width : Nat
  height : Nat
  current : Bool

/-- What is known after one more attempt. -/
def Sync.after (sync : Sync) (attempt : Attempt) : Sync :=
  match attempt.stage with
  | .refused => sync
  | .unmapped =>
      { sync with
        width := attempt.width
        height := attempt.height
        current := sync.current &&
          decide (sync.width = attempt.width ∧ sync.height = attempt.height) }
  | .unshown => ⟨attempt.width * attempt.height, attempt.width, attempt.height, false⟩
  | .shown => ⟨attempt.width * attempt.height, attempt.width, attempt.height, true⟩

/-- A frame of several pixels that is presented after one with as many finds that one on the
surface, at its own size. -/
def Sync.Ready (sync : Sync) (attempt : Attempt) : Prop :=
  attempt.stage = .shown → sync.count = attempt.width * attempt.height → 1 < sync.count →
    sync.current = true ∧ sync.width = attempt.width ∧ sync.height = attempt.height

/-- Every attempt finds the surface ready. -/
def InStep : Sync → List Attempt → Prop
  | _, [] => True
  | sync, attempt :: rest => sync.Ready attempt ∧ InStep (sync.after attempt) rest

/-- What is known of a new presenter. -/
def Sync.new : Sync := ⟨0, 0, 0, false⟩

/-- The presenter is as the attempts say. -/
structure Tracks (presenter : SoftwarePresenter) (sync : Sync) : Prop where
  count : presenter.previous.length = sync.count
  width : presenter.surface.width = sync.width
  height : presenter.surface.height = sync.height
  length : presenter.surface.pixels.length = presenter.surface.width * presenter.surface.height
  current : sync.current = true → presenter.surface.pixels = presenter.previous

theorem tracks_new (dirtyRegions : Bool) : Tracks (new dirtyRegions) .new where
  count := rfl
  width := rfl
  height := rfl
  length := rfl
  current := nofun

/-- A presenter that is in step shows the frame. -/
theorem Tracks.shows {sync : Sync} (h : Tracks presenter sync)
    (hready : presenter.dirtyRegions = true → sync.Ready frame.attempt)
    (hshown : frame.attempt.stage = .shown) : presenter.Shows frame := by
  refine shows_of_damaged hshown h.length fun rect hdamage index hne => ?_
  unfold damage at hdamage
  split at hdamage
  · rename_i hdirty
    obtain ⟨hwidth, hheight⟩ := shown_size hshown
    obtain ⟨hlength, hdiffers⟩ := changed_differs hwidth hdamage
    have hcount : sync.count = frame.attempt.width * frame.attempt.height := by
      rw [← h.count, hlength, frame.pixels_length]
    by_cases hseveral : 1 < sync.count
    · -- the surface holds `previous`, so it differs from the frame where `previous` does
      obtain ⟨hcurrent, hsame⟩ := hready hdirty hshown hcount hseveral
      rw [resized, Surface.resize, if_pos (by rw [h.width, h.height]; exact hsame),
        h.current hcurrent] at hne
      exact changed_contains hdamage hne
    · -- the only pixel is the one that has changed
      have hone : presenter.previous.length = 1 := by
        have hpositive := Nat.mul_pos hwidth hheight
        rw [h.count]
        omega
      have hframe : (imagePixels frame.image).length = 1 := hlength ▸ hone
      have hsurface : (presenter.resized frame).pixels.length = 1 := by
        rw [resized, resize_length _ _ h.length, ← hcount, ← h.count, hone]
      obtain rfl : index = 0 := by
        by_contra hindex
        refine hne ?_
        rw [List.getElem?_eq_none (by omega), List.getElem?_eq_none (by omega)]
      refine changed_contains hdamage fun hsame => hdiffers (List.ext_getElem? fun other => ?_)
      cases other with
      | zero => exact hsame
      | succ other => rw [List.getElem?_eq_none (by omega), List.getElem?_eq_none (by omega)]
  · cases hdamage

theorem drawn_size (presenter : SoftwarePresenter) (frame : Frame) :
    (presenter.drawn frame).width = frame.attempt.width ∧
      (presenter.drawn frame).height = frame.attempt.height := by
  unfold drawn
  split
  · exact resize_size _ _ _
  · exact resize_size _ _ _

/-- One more attempt keeps the account. -/
theorem Tracks.after {sync : Sync} (h : Tracks presenter sync)
    (hshows : frame.attempt.stage = .shown → presenter.Shows frame) :
    Tracks (presenter.present frame).2 (sync.after frame.attempt) := by
  obtain ⟨hwidth, hheight⟩ := resize_size presenter.surface frame.attempt.width frame.attempt.height
  have hlength := resize_length frame.attempt.width frame.attempt.height h.length
  have hresized : (presenter.resized frame).pixels.length =
      (presenter.resized frame).width * (presenter.resized frame).height := by
    rw [resized, hlength, hwidth, hheight]
  unfold Sync.after
  cases hstage : frame.attempt.stage with
  | refused =>
      obtain ⟨error, hpresent⟩ := present_refused presenter hstage
      rw [hpresent]
      exact h
  | unmapped =>
      obtain ⟨error, hpresent⟩ := present_unmapped presenter hstage
      rw [hpresent]
      refine ⟨h.count, hwidth, hheight, hresized, fun hcurrent => ?_⟩
      obtain ⟨hcurrent, hsame⟩ := Bool.and_eq_true_iff.mp hcurrent
      have hsame := of_decide_eq_true hsame
      rw [← h.width, ← h.height] at hsame
      dsimp only
      rw [resized, Surface.resize, if_pos hsame]
      exact h.current hcurrent
  | unshown =>
      obtain ⟨error, hpresent⟩ := present_unshown presenter hstage
      rw [hpresent]
      exact ⟨frame.pixels_length, hwidth, hheight, hresized, nofun⟩
  | shown =>
      have hpixels := (hshows hstage).pixels
      rw [present_shown presenter hstage] at hpixels ⊢
      obtain ⟨hwidth, hheight⟩ := presenter.drawn_size frame
      refine ⟨frame.pixels_length, hwidth, hheight, ?_, fun _ => hpixels⟩
      dsimp only at hpixels ⊢
      rw [hpixels, frame.pixels_length, hwidth, hheight]

/-- A run whose attempts keep in step shows every frame. -/
theorem Tracks.shows_all {sync : Sync} (h : Tracks presenter sync) {frames : List Frame}
    (hstep : presenter.dirtyRegions = true → InStep sync (frames.map Frame.attempt)) :
    presenter.ShowsAll frames := by
  induction frames generalizing presenter sync with
  | nil => trivial
  | cons frame rest ih =>
      have hshows : frame.attempt.stage = .shown → presenter.Shows frame :=
        h.shows fun hdirty => (hstep hdirty).1
      refine ⟨fun hok => hshows (present_ok hok), ih (h.after hshows) fun hdirty => ?_⟩
      rw [present_dirty] at hdirty
      exact (hstep hdirty).2

/-! ## Frames that show a missed step -/

/-- An image of this many blue pixels. -/
def blueImage (blue : UInt8) : Nat → List UInt8
  | 0 => []
  | count + 1 => 0 :: 0 :: blue :: 255 :: blueImage blue count

theorem blue_image_length (blue : UInt8) (count : Nat) :
    (blueImage blue count).length = 4 * count := by
  induction count with
  | zero => rfl
  | succ count ih =>
      simp only [blueImage, List.length_cons, ih]
      omega

theorem blue_image_pixels (blue : UInt8) (count : Nat) :
    imagePixels (blueImage blue count) = List.replicate count blue.toUInt32 := by
  induction count with
  | zero => rfl
  | succ count ih =>
      rw [blueImage, imagePixels, ih, List.replicate_succ]
      simp

/-- A frame of blue pixels. -/
def blueFrame (attempt : Attempt) (blue : UInt8) : Frame where
  attempt := attempt
  image := blueImage blue (attempt.width * attempt.height)
  whole := blue_image_length _ _

/-- The colour that the surface has after the size of the frame is set. -/
def Sync.colour (sync : Sync) (shown : UInt8) (attempt : Attempt) : UInt8 :=
  if sync.width = attempt.width ∧ sync.height = attempt.height then shown else 0

/-- The presenter holds one frame of blue pixels, and its surface is of one colour, another one if
it is not in step. -/
structure Painted (presenter : SoftwarePresenter) (sync : Sync) (blue shown : UInt8) : Prop where
  previous : presenter.previous = List.replicate sync.count blue.toUInt32
  width : presenter.surface.width = sync.width
  height : presenter.surface.height = sync.height
  surface : presenter.surface.pixels =
    List.replicate (sync.width * sync.height) shown.toUInt32
  colour : blue = 1 ∨ blue = 2
  other : sync.current = false → shown ≠ blue

theorem painted_new (dirtyRegions : Bool) : Painted (new dirtyRegions) .new 1 0 where
  previous := rfl
  width := rfl
  height := rfl
  surface := rfl
  colour := .inl rfl
  other _ := by decide

theorem to_uint32_ne {first second : UInt8} (h : first ≠ second) :
    first.toUInt32 ≠ second.toUInt32 := by
  intro heq
  exact h (UInt8.toUInt32_inj.mp heq)

theorem Painted.resized_pixels {sync : Sync} {blue shown : UInt8}
    (h : Painted presenter sync blue shown) (frame : Frame) :
    (presenter.resized frame).pixels = List.replicate
      (frame.attempt.width * frame.attempt.height)
      (sync.colour shown frame.attempt).toUInt32 := by
  unfold SoftwarePresenter.resized Surface.resize Sync.colour
  rw [h.width, h.height]
  split
  · rename_i hsame
    rw [h.surface, hsame.1, hsame.2]
  · rfl

theorem Painted.count_length {sync : Sync} {blue shown : UInt8}
    (h : Painted presenter sync blue shown) :
    presenter.surface.pixels.length = presenter.surface.width * presenter.surface.height := by
  rw [h.surface, h.width, h.height, List.length_replicate]

/-- A frame of one colour is always shown. -/
theorem Painted.shows {sync : Sync} {blue shown : UInt8} (h : Painted presenter sync blue shown)
    {attempt : Attempt} (hshown : attempt.stage = .shown) (next : UInt8) :
    presenter.Shows (blueFrame attempt next) := by
  have hpixels : imagePixels (blueFrame attempt next).image =
      List.replicate (attempt.width * attempt.height) next.toUInt32 := blue_image_pixels _ _
  refine shows_of_damaged hshown h.count_length fun rect hdamage index hne => ?_
  unfold damage at hdamage
  split at hdamage
  · obtain ⟨hwidth, _⟩ := shown_size hshown
    obtain ⟨hlength, hdiffers⟩ := changed_differs hwidth hdamage
    refine changed_contains hdamage fun hsame => ?_
    rw [h.resized_pixels, hpixels] at hne
    rw [hpixels, h.previous] at hsame hlength hdiffers
    rw [List.length_replicate, List.length_replicate] at hlength
    rw [hlength] at hsame hdiffers
    simp only [List.getElem?_replicate] at hsame hne
    by_cases hindex : index < attempt.width * attempt.height
    · rw [if_pos hindex, if_pos hindex, Option.some_inj] at hsame
      exact hdiffers (by rw [hsame])
    · exact hne ((if_neg hindex).trans (if_neg hindex).symm)
  · cases hdamage

/-- A frame of one colour keeps the presenter painted. -/
theorem Painted.after {sync : Sync} {blue shown : UInt8} (h : Painted presenter sync blue shown)
    (attempt : Attempt) : ∃ frame, frame.attempt = attempt ∧ ∃ blue' shown',
      Painted (presenter.present frame).2 (sync.after attempt) blue' shown' := by
  have hzero : (0 : UInt8) ≠ blue := by
    rcases h.colour with rfl | rfl <;> decide
  obtain ⟨hwidth, hheight⟩ := resize_size presenter.surface attempt.width attempt.height
  have hframe : ∀ next, (blueFrame attempt next).attempt.stage = attempt.stage := fun _ => rfl
  cases hstage : attempt.stage with
  | refused =>
      obtain ⟨error, hpresent⟩ :=
        present_refused presenter ((hframe 1).trans hstage)
      refine ⟨blueFrame attempt 1, rfl, blue, shown, ?_⟩
      rw [hpresent, Sync.after, hstage]
      exact h
  | unmapped =>
      obtain ⟨error, hpresent⟩ :=
        present_unmapped presenter ((hframe 1).trans hstage)
      refine ⟨blueFrame attempt 1, rfl, blue, sync.colour shown attempt, ?_⟩
      rw [hpresent, Sync.after, hstage]
      refine ⟨h.previous, hwidth, hheight, h.resized_pixels _, h.colour, fun hother => ?_⟩
      unfold Sync.colour
      split
      · rename_i hsame
        dsimp only at hother
        rw [decide_eq_true hsame, Bool.and_true] at hother
        exact h.other hother
      · exact hzero
  | unshown =>
      obtain ⟨next, hnext, hother⟩ : ∃ next : UInt8, (next = 1 ∨ next = 2) ∧
          sync.colour shown attempt ≠ next := by
        by_cases hone : sync.colour shown attempt = 1
        · exact ⟨2, .inr rfl, by rw [hone]; decide⟩
        · exact ⟨1, .inl rfl, hone⟩
      obtain ⟨error, hpresent⟩ :=
        present_unshown presenter ((hframe next).trans hstage)
      refine ⟨blueFrame attempt next, rfl, next, sync.colour shown attempt, ?_⟩
      rw [hpresent, Sync.after, hstage]
      exact ⟨blue_image_pixels _ _, hwidth, hheight, h.resized_pixels _, hnext, fun _ => hother⟩
  | shown =>
      have hpixels := (h.shows hstage 1).pixels
      rw [present_shown presenter ((hframe 1).trans hstage)] at hpixels
      obtain ⟨hwidth, hheight⟩ := presenter.drawn_size (blueFrame attempt 1)
      refine ⟨blueFrame attempt 1, rfl, 1, 1, ?_⟩
      rw [present_shown presenter ((hframe 1).trans hstage), Sync.after, hstage]
      refine ⟨blue_image_pixels _ _, hwidth, hheight, ?_, .inl rfl, nofun⟩
      exact hpixels.trans (blue_image_pixels _ _)

/-- A frame with one more colour in its first pixel. -/
def markedFrame (attempt : Attempt) (blue : UInt8) (rest : Nat)
    (h : attempt.width * attempt.height = rest + 1) : Frame where
  attempt := attempt
  image := 0 :: 0 :: 3 :: 255 :: blueImage blue rest
  whole := by
    rw [h]
    exact blue_image_length 3 (rest + 1) ▸ by simp [blue_image_length]; omega

/-- Only the first pixel has changed. -/
theorem changed_first {before after pixel : UInt32} (hne : before ≠ after)
    (width height rest : Nat) :
    changedBounds (before :: List.replicate rest pixel) (after :: List.replicate rest pixel) width
      height = some ⟨0, 0, 1, 1⟩ := by
  unfold changedBounds
  rw [if_neg (by simp)]
  have hsame : ∀ pair ∈ (List.replicate rest pixel).zip (List.replicate rest pixel),
      pair.1 = pair.2 := by
    intro pair hpair
    rw [List.zip, List.zipWith_self] at hpair
    obtain ⟨_, _, rfl⟩ := List.mem_map.mp hpair
    rfl
  rw [List.zip_cons_cons, changedFrom, if_neg hne, changed_from_same hsame]
  simp

theorem second_outside {width : Nat} (hwidth : 0 < width) :
    ¬ (Rect.mk 0 0 1 1).Contains width 1 := by
  unfold Rect.Contains
  dsimp only
  rintro ⟨_, hcolumn, _, hrow⟩
  obtain hone | hmore : width = 1 ∨ 1 < width := by omega
  · rw [hone, Nat.div_one] at hrow
    omega
  · rw [Nat.mod_eq_of_lt hmore] at hcolumn
    omega

/-- A presenter that is not ready misses a change. -/
theorem Painted.missed {sync : Sync} {blue shown : UInt8} (h : Painted presenter sync blue shown)
    (hdirty : presenter.dirtyRegions = true) {attempt : Attempt} (hready : ¬ sync.Ready attempt) :
    ∃ frame, frame.attempt = attempt ∧ (presenter.present frame).1 = .ok () ∧
      ¬ presenter.Shows frame := by
  unfold Sync.Ready at hready
  push Not at hready
  obtain ⟨hshown, hcount, hseveral, hmissed⟩ := hready
  obtain ⟨rest, hrest⟩ : ∃ rest, sync.count = rest + 2 := ⟨sync.count - 2, by omega⟩
  have hsize : attempt.width * attempt.height = (rest + 1) + 1 := by omega
  refine ⟨markedFrame attempt blue (rest + 1) hsize, rfl, ?_, fun hshows => ?_⟩
  · rw [present_shown presenter hshown]
  · have hpixels : imagePixels (markedFrame attempt blue (rest + 1) hsize).image =
        (3 : UInt8).toUInt32 :: List.replicate (rest + 1) blue.toUInt32 := by
      show imagePixels (0 :: 0 :: 3 :: 255 :: blueImage blue (rest + 1)) = _
      rw [imagePixels, blue_image_pixels]
      rfl
    have hchanged : blue.toUInt32 ≠ (3 : UInt8).toUInt32 := by
      rcases h.colour with rfl | rfl <;> decide
    have hdamage : presenter.damage (markedFrame attempt blue (rest + 1) hsize) =
        some ⟨0, 0, 1, 1⟩ := by
      unfold damage
      rw [if_pos hdirty, h.previous, hrest, hpixels, List.replicate_succ]
      exact changed_first hchanged _ _ _
    -- the second pixel is outside the rectangle, so the surface keeps its own
    obtain ⟨hwidth, _⟩ := resize_size presenter.surface attempt.width attempt.height
    have houtside : ¬ (Rect.mk 0 0 1 1).Contains
        (presenter.resized (markedFrame attempt blue (rest + 1) hsize)).width 1 := by
      refine second_outside ?_
      show 0 < (presenter.surface.resize attempt.width attempt.height).width
      rw [hwidth]
      exact (shown_size hshown).1
    have hlength : (presenter.resized (markedFrame attempt blue (rest + 1) hsize)).pixels.length =
        (imagePixels (markedFrame attempt blue (rest + 1) hsize).image).length := by
      rw [Frame.pixels_length]
      exact resize_length _ _ h.count_length
    have hkept := overwrite_outside hlength houtside
    have hdrawn := hshows.pixels
    rw [present_shown presenter hshown] at hdrawn
    dsimp only at hdrawn
    rw [drawn, hdamage] at hdrawn
    have hsecond := congrArg (fun pixels => pixels[1]?) hdrawn
    dsimp only [Surface.presentWithDamage] at hsecond
    rw [hkept, h.resized_pixels, hpixels, List.getElem?_cons_succ, List.getElem?_replicate,
      List.getElem?_replicate, if_pos (by show 1 < attempt.width * attempt.height; omega),
      if_pos (by omega), Option.some_inj] at hsecond
    refine to_uint32_ne ?_ hsecond
    show sync.colour shown attempt ≠ blue
    unfold Sync.colour
    split
    · rename_i hsame
      refine h.other (Bool.eq_false_iff.mpr fun hcurrent => ?_)
      exact hmissed hcurrent hsame.1 hsame.2
    · rcases h.colour with rfl | rfl <;> decide

/-- An attempt that does not find the surface ready fails for some frames. -/
theorem Painted.not_in_step {sync : Sync} {blue shown : UInt8}
    (h : Painted presenter sync blue shown) (hdirty : presenter.dirtyRegions = true)
    {attempts : List Attempt} (hstep : ¬ InStep sync attempts) :
    ∃ frames : List Frame, frames.map Frame.attempt = attempts ∧ ¬ presenter.ShowsAll frames := by
  induction attempts generalizing presenter sync blue shown with
  | nil => exact absurd trivial hstep
  | cons attempt rest ih =>
      by_cases hready : sync.Ready attempt
      · obtain ⟨frame, rfl, blue', shown', hafter⟩ := h.after attempt
        have hrest : ¬ InStep (sync.after frame.attempt) rest := fun hrest => hstep ⟨hready, hrest⟩
        have hdirty : (presenter.present frame).2.dirtyRegions = true := by
          rw [present_dirty]
          exact hdirty
        obtain ⟨frames, rfl, hframes⟩ := ih hafter hdirty hrest
        exact ⟨frame :: frames, rfl, fun hall => hframes hall.2⟩
      · obtain ⟨frame, rfl, hok, hmissed⟩ := h.missed hdirty hready
        -- the attempts that follow may meet any frames
        refine ⟨frame :: rest.map fun attempt => blueFrame attempt 1, ?_, fun hall =>
          hmissed (hall.1 hok)⟩
        rw [List.map_cons, List.map_map]
        exact congrArg _ (List.map_id _)

end SoftwarePresenter

/-- Every frame that is presented is shown, whatever the frames are, exactly if the attempts keep in
step or the presenter does not use dirty regions. -/
theorem presented_iff (dirtyRegions : Bool) (attempts : List Attempt) :
    (∀ frames : List Frame, frames.map Frame.attempt = attempts →
      (SoftwarePresenter.new dirtyRegions).ShowsAll frames) ↔
      (dirtyRegions = true → SoftwarePresenter.InStep .new attempts) := by
  constructor
  · intro hall hdirty
    by_contra hstep
    obtain ⟨frames, hframes, hmissed⟩ :=
      (SoftwarePresenter.painted_new dirtyRegions).not_in_step hdirty hstep
    exact hmissed (hall frames hframes)
  · rintro hstep frames rfl
    exact (SoftwarePresenter.tracks_new dirtyRegions).shows_all hstep

/-- An attempt that succeeds. -/
def shownAttempt (width height : Nat) : Attempt := ⟨width, height, true, .ok (), .ok (), .ok ()⟩

/-- A window is turned, from two rows to two columns, and its first pixel changes. -/
def turnedFrames : List Frame :=
  [SoftwarePresenter.blueFrame (shownAttempt 1 2) 1,
    SoftwarePresenter.markedFrame (shownAttempt 2 1) 1 1 rfl]

/-- Both frames are presented, and the second pixel of the second one is left black. -/
theorem turned_missed :
    (SoftwarePresenter.new true |>.present turnedFrames[0]).2.present turnedFrames[1] =
        (.ok (), ⟨⟨2, 1, [3, 0]⟩, [3, 1], true⟩) ∧
      ¬ (SoftwarePresenter.new true).ShowsAll turnedFrames := by
  refine ⟨by rfl, fun hall => ?_⟩
  have hpixels := (hall.2.1 rfl).pixels
  revert hpixels
  decide +kernel

end PamDesktop.Shell
