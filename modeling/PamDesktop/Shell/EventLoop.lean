import PamDesktop.Foundations.Transition
import PamDesktop.Shell.NativeShell
import PamDesktop.Shell.WindowState
import PamDesktop.Shell.Windows

/-!
# The event loop

`AppState` of the engine and what it does with an event: effects of the worker, a hot reload, a
request to close a window, the focus. A panic is the absence of a next state. The main window is
never destroyed, which is why closing another window never ends the application:
`application_ends_iff` says which events do.
-/

namespace PamDesktop.Shell

open Foundations Protocol

inductive UserAttention where
  | critical | informational
deriving DecidableEq

/-- `DesktopWindow`, with what the host has asked of the native window and of the web view. -/
structure DesktopWindow where
  native : Nat
  id : String
  role : WindowRole
  parent : Option String
  title : String
  visible : Bool
  shown : Bool
  focused : Bool
  fullscreen : Bool
  maximized : Bool
  alwaysOnTop : Bool
  attention : Option UserAttention
deriving DecidableEq

/-- `set_visible(false)` of the native window and `hide` of the web view. -/
def DesktopWindow.hidden (window : DesktopWindow) : DesktopWindow :=
  { window with visible := false, shown := false }

/-- `AppState`: the windows, how many the windowing system has made, the native shell, and whether
the loop has been told to exit. -/
structure AppState where
  windows : List DesktopWindow
  made : Nat
  shell : NativeShell
  workstation : WorkstationConfig
  exiting : Bool

namespace AppState

/-- `target_window_id`. -/
def target (state : AppState) (id : String) : Option DesktopWindow :=
  state.windows.find? fun window => window.id == id

/-- The entry of `windows` under a native identifier. -/
def window (state : AppState) (native : Nat) : Option DesktopWindow :=
  state.windows.find? fun window => window.native == native

/-- A change of the window with a native identifier. -/
def change (state : AppState) (native : Nat) (f : DesktopWindow → DesktopWindow) : AppState :=
  { state with
    windows := state.windows.map fun window => if window.native = native then f window else window }

/-- `windows.remove`. -/
def remove (state : AppState) (native : Nat) : AppState :=
  { state with windows := state.windows.filter fun window => window.native != native }

/-- `event_loop.exit`. -/
def exit (state : AppState) : AppState := { state with exiting := true }

/-- `keep_alive_without_windows`. -/
def keepAliveWithoutWindows (state : AppState) : Bool :=
  state.workstation.persistentServices && !state.workstation.backgroundAgent

end AppState

/-! ## Creating the windows -/

/-- The windows that the loop of `configure` has inserted when it ends, with or without an error. -/
def insertedWindows (workstation : WorkstationConfig) (createWindow : CreateWindow)
    (created pending : List WindowConfig) : List WindowConfig :=
  if pending = [] then created
  else
    let pass := retainPending workstation createWindow created none pending
    match pass.failure with
    | some _ => pass.created
    | none =>
        if _hstuck : pass.retained.length = pending.length then pass.created
        else insertedWindows workstation createWindow pass.created pass.retained
termination_by pending.length
decreasing_by
  exact Nat.lt_of_le_of_ne
    (retain_pending_length workstation createWindow created none pending) _hstuck

/-- `create_window`, where the windowing system makes the window. -/
def createWindow (workstation : WorkstationConfig)
    (restored : String → Option RestoredWindowState) (native : Nat) (config : WindowConfig) :
    DesktopWindow :=
  let profile := workstation.windows.get config.id
  let state := if workstation.workspaceRestore && (profile.map (·.restore)).getD false then
    restored config.id else none
  let role := (profile.map (·.role)).getD .primary
  { native := native
    id := config.id
    role := role
    parent := profile.bind (·.parent)
    title := config.title
    visible := config.visible
    shown := config.visible
    focused := config.id == mainWindowId
    fullscreen := (state.map (·.fullscreen)).getD config.fullscreen
    maximized := (state.map (·.maximized)).getD config.maximized
    alwaysOnTop := config.alwaysOnTop || role == .popover || role == .panel || role == .palette
    attention := none }

/-- The windows that are made, each under an identifier of its own. -/
def numbered (workstation : WorkstationConfig) (restored : String → Option RestoredWindowState)
    (made : Nat) : List WindowConfig → List DesktopWindow
  | [] => []
  | config :: rest =>
      createWindow workstation restored made config ::
        numbered workstation restored (made + 1) rest

/-- What the desktop answers while a bootstrap is set up: which shortcuts are registered, whether
the tray and the windows are made, and what the store of window states has. -/
structure Answers where
  shortcuts : Except String (List (Nat × String))
  tray : Except String Unit
  create : CreateWindow
  restored : String → Option RestoredWindowState

/-- `configure`. -/
def AppState.configure (state : AppState) (answers : Answers) (bootstrap : Bootstrap) :
    AppState :=
  let inserted := insertedWindows state.workstation answers.create [] bootstrap.windows
  { state with
    windows := numbered state.workstation answers.restored state.made inserted
    made := state.made + inserted.length }

/-! ## Effects -/

/-- What an effect does to the window that it is for, or `none` where it is not for a window. -/
def windowEffect (effect : Effect Json) : Option (DesktopWindow → DesktopWindow) :=
  let flag (key : String) := (payloadMember key effect.payload).bind asBool
  match effect.kind with
  | .setWindowTitle => some fun window =>
      match (payloadMember "title" effect.payload).bind asText with
      | some title => { window with title }
      | none => window
  | .setWindowVisible => some fun window =>
      match flag "visible" with
      | some visible => { window with visible := visible, shown := visible }
      | none => window
  | .focusWindow => some fun window =>
      { window with visible := true, shown := true, focused := true }
  | .setWindowFullscreen => some fun window =>
      match flag "fullscreen" with
      | some fullscreen => { window with fullscreen }
      | none => window
  | .setWindowMaximized => some fun window =>
      match flag "maximized" with
      | some maximized => { window with maximized }
      | none => window
  | .setWindowAlwaysOnTop => some fun window =>
      match flag "alwaysOnTop" with
      | some alwaysOnTop => { window with alwaysOnTop }
      | none => window
  | .setWindowAttention => some fun window =>
      { window with
        attention := if (flag "active").getD true then
          some (if (flag "critical").getD false then .critical else .informational) else none }
  | .setApplicationBadge | .setTaskbarProgress => some id
  | .closeWindow | .setMenuItemEnabled | .setMenuItemChecked | .setTrayVisible | .quitApplication =>
      none

/-- `CloseWindow`. -/
def AppState.closeWindow (state : AppState) (id : String) (native : Nat) : AppState :=
  if (id = mainWindowId ∨ state.windows.length = 1) ∧ state.keepAliveWithoutWindows = true then
    state.change native DesktopWindow.hidden
  else if id = mainWindowId ∨ state.windows.length = 1 then state.exit
  else state.remove native

/-- One turn of `apply_effects` after the native shell has left the effect to the windows: the
state, and whether the effects after it are applied. -/
def AppState.applyToWindows (state : AppState) (effect : Effect Json) : Option (AppState × Bool) :=
  if effect.kind = .quitApplication then some (state.exit, false)
  else
    match state.target effect.windowId with
    | none => some (state, true)
    | some window =>
        match windowEffect effect with
        | some f => some (state.change window.native f, true)
        | none =>
            if effect.kind = .closeWindow then
              some (state.closeWindow effect.windowId window.native, true)
            else none

/-- `apply_effects`. -/
def AppState.applyEffects (desktop : Desktop) (state : AppState) :
    List (Effect Json) → Option AppState
  | [] => some state
  | effect :: rest =>
      match state.shell.applyEffect desktop effect with
      | (.ok false, shell) =>
          match { state with shell }.applyToWindows effect with
          | some (state, true) => state.applyEffects desktop rest
          | some (state, false) => some state
          | none => none
      | (_, shell) => { state with shell }.applyEffects desktop rest

/-! ## Events -/

/-- What the loop receives. -/
inductive HostEvent where
  | applyEffects (effects : List (Effect Json))
  | reconfigure (bootstrap : Bootstrap) (answers : Answers)
  | exit
  | closeRequested (native : Nat)
  | focused (native : Nat) (gained : Bool)

/-- `focus_modal_child`: the window that gets the focus in place of its parent. -/
def AppState.modalChild (desktop : Desktop) (state : AppState) (parent : String) :
    Option DesktopWindow :=
  state.windows.find? fun window => window.role == .modal && window.parent == some parent &&
    desktop.reportsVisibility && window.visible

/-- `Focused`. -/
def AppState.focusChanged (desktop : Desktop) (state : AppState) (native : Nat) (gained : Bool) :
    AppState :=
  match state.window native with
  | none => state
  | some window =>
      if gained then
        match state.modalChild desktop window.id with
        | some modal => state.change modal.native fun window => { window with focused := true }
        | none => state.change native fun window => { window with focused := true }
      else state.change native fun window => { window with focused := false }

/-- `close_requested`. -/
def AppState.closeRequested (state : AppState) (native : Nat) : AppState :=
  match state.window native with
  | none => state.exit
  | some window =>
      if window.id = mainWindowId ∧
          (state.shell.closeBehavior = .hide ∨ state.keepAliveWithoutWindows = true) then
        state.change native DesktopWindow.hidden
      else if window.id = mainWindowId ∨ state.windows.length = 1 then state.exit
      else state.change native fun window => { window.hidden with focused := false }

/-- One event of the loop. -/
def AppState.next (desktop : Desktop) (state : AppState) : HostEvent → Option AppState
  | .applyEffects effects => state.applyEffects desktop effects
  | .reconfigure bootstrap answers =>
      (NativeShell.prepare answers.shortcuts answers.tray bootstrap).map fun prepared =>
        -- the old shell is dropped first, and stays away when the new one cannot be prepared
        let shell := match prepared with
          | .ok shell => shell
          | .error _ => .empty
        { state with workstation := bootstrap.workstation, shell }.configure answers bootstrap
  | .exit => some state.exit
  | .closeRequested native => some (state.closeRequested native)
  | .focused native gained => some (state.focusChanged desktop native gained)

/-- The loop. -/
def eventLoop (desktop : Desktop) : System AppState HostEvent where
  next := AppState.next desktop

/-- `resumed`: the state in which the loop begins, if the shell and the windows could be made. -/
def resumed (answers : Answers) (bootstrap : Bootstrap) : Option (Except String AppState) :=
  (NativeShell.prepare answers.shortcuts answers.tray bootstrap).map fun prepared => do
    let shell ← prepared
    let _ ← Shell.configure bootstrap.workstation answers.create bootstrap
    .ok (AppState.configure ⟨[], 0, shell, bootstrap.workstation, false⟩ answers bootstrap)

/-- The windows of the bootstrap are all made. -/
def Made (answers : Answers) (bootstrap : Bootstrap) : Prop :=
  ∃ created, Shell.configure bootstrap.workstation answers.create bootstrap = .ok created

/-- A hot reload brings an accepted bootstrap, whose windows are all made. -/
def Reloads (platform : Platform) : HostEvent → Prop
  | .reconfigure bootstrap answers =>
      bootstrap.validate platform = .ok () ∧ Made answers bootstrap
  | _ => True

/-- A request to close the window ends the application: it is the main one and nothing keeps the
application, or it is none of those that are there. -/
def AppState.EndsByClosing (state : AppState) (native : Nat) : Prop :=
  match state.window native with
  | none => True
  | some window => window.id = mainWindowId ∧ state.shell.closeBehavior = .exit ∧
      state.keepAliveWithoutWindows = false

/-- An effect that ends the application. -/
def AppState.EndsBy (state : AppState) (effect : Effect Json) : Prop :=
  effect.kind = .quitApplication ∨ effect.kind = .closeWindow ∧ effect.windowId = mainWindowId ∧
    state.keepAliveWithoutWindows = false

/-- Which events end the application. -/
def AppState.Ends (state : AppState) : HostEvent → Prop
  | .applyEffects effects => ∃ effect ∈ effects, state.EndsBy effect
  | .exit => True
  | .closeRequested native => state.EndsByClosing native
  | .reconfigure _ _ | .focused _ _ => False

/-- What holds of the windows between events. -/
structure AppState.Standing (state : AppState) : Prop where
  natives : (state.windows.map (·.native)).Nodup
  known : ∀ window ∈ state.windows, window.native < state.made
  ids : (state.windows.map (·.id)).Nodup
  main : mainWindowId ∈ state.windows.map (·.id)

/-! ## Windows that are made -/

variable {workstation : WorkstationConfig} {create : CreateWindow}
  {created pending : List WindowConfig}

/-- A pass loses no window and makes none twice, whether or not native creation succeeds. -/
theorem retain_pending_perm (failure : Option String) :
    let pass := retainPending workstation create created failure pending
    (pass.created ++ pass.retained).Perm (created ++ pending) := by
  induction pending generalizing created failure with
  | nil => exact List.Perm.refl _
  | cons config rest ih =>
      rw [retainPending]
      split
      · exact List.perm_middle.trans (((ih failure).cons config).trans List.perm_middle.symm)
      · split
        · have hrest := @ih (created ++ [config]) failure
          simpa using hrest
        · exact List.perm_middle.trans (((ih _).cons config).trans List.perm_middle.symm)

/-- The windows inserted are windows of the bootstrap, each at most once. -/
theorem inserted_windows_subperm (created pending : List WindowConfig) :
    (insertedWindows workstation create created pending).Subperm (created ++ pending) := by
  induction hlength : pending.length using Nat.strong_induction_on generalizing created pending with
  | _ length ih =>
      have hpass := @retain_pending_perm workstation create created pending none
      have hcreated : (retainPending workstation create created none pending).created.Subperm
          (created ++ pending) :=
        (List.sublist_append_left ..).subperm.trans hpass.subperm
      unfold insertedWindows
      split
      · exact (List.sublist_append_left ..).subperm
      · dsimp only
        split
        · exact hcreated
        · split
          · exact hcreated
          · rename_i hstuck
            have hle := retain_pending_length workstation create created none pending
            exact (ih _ (by omega) _ _ rfl).trans hpass.subperm

/-- Where `configure` succeeds, the windows inserted are its result. -/
theorem inserted_windows_of_ok {created pending final : List WindowConfig}
    (h : orderWindows workstation create created pending = .ok final) :
    insertedWindows workstation create created pending = final := by
  induction hlength : pending.length using Nat.strong_induction_on generalizing created pending with
  | _ length ih =>
      unfold orderWindows at h
      unfold insertedWindows
      split at h
      · rename_i hnil
        rw [if_pos hnil]
        exact Except.ok.inj h
      · rename_i hnil
        rw [if_neg hnil]
        dsimp only at h ⊢
        cases hfailure : (retainPending workstation create created none pending).failure with
        | some message =>
            rw [hfailure] at h
            cases h
        | none =>
            rw [hfailure] at h
            dsimp only at h ⊢
            split at h
            · cases h
            · rename_i hstuck
              rw [dif_neg hstuck]
              have hle := retain_pending_length workstation create created none pending
              exact ih _ (by omega) h rfl

/-- Where `configure` succeeds, every window has been made. -/
theorem order_windows_perm {created pending final : List WindowConfig}
    (h : orderWindows workstation create created pending = .ok final) :
    final.Perm (created ++ pending) := by
  induction hlength : pending.length using Nat.strong_induction_on generalizing created pending with
  | _ length ih =>
      unfold orderWindows at h
      split at h
      · rename_i hnil
        cases h
        simp [hnil]
      · dsimp only at h
        split at h
        · cases h
        · split at h
          · cases h
          · rename_i hstuck
            have hle := retain_pending_length workstation create created none pending
            exact (ih _ (by omega) h rfl).trans (retain_pending_perm none)

theorem numbered_ids (restored : String → Option RestoredWindowState) (made : Nat)
    (configs : List WindowConfig) :
    (numbered workstation restored made configs).map (·.id) = configs.map (·.id) := by
  induction configs generalizing made with
  | nil => rfl
  | cons config rest ih => simp [numbered, createWindow, ih]

theorem numbered_natives (restored : String → Option RestoredWindowState) (made : Nat)
    (configs : List WindowConfig) :
    (numbered workstation restored made configs).map (·.native) =
      List.range' made configs.length := by
  induction configs generalizing made with
  | nil => rfl
  | cons config rest ih => simp [numbered, createWindow, ih, List.range'_succ]

/-- Setting up a valid bootstrap whose windows are all made. -/
theorem configure_standing {state : AppState} {answers : Answers} {bootstrap : Bootstrap}
    (hvalid : bootstrap.Valid) (hworkstation : state.workstation = bootstrap.workstation)
    (hmade : Made answers bootstrap) : (state.configure answers bootstrap).Standing := by
  obtain ⟨created, hcreated⟩ := hmade
  have hinserted := inserted_windows_of_ok hcreated
  have hperm : created.Perm bootstrap.windows := order_windows_perm hcreated
  rw [← hworkstation] at hinserted
  unfold AppState.configure
  rw [hinserted]
  have hnatives := @numbered_natives state.workstation answers.restored state.made created
  constructor
  case natives =>
    rw [hnatives]
    exact List.nodup_range'
  case known =>
    intro window hwindow
    have hmem := List.mem_map_of_mem (f := (·.native)) hwindow
    rw [hnatives, List.mem_range'_1] at hmem
    exact hmem.2
  case ids =>
    rw [numbered_ids]
    exact (hperm.map _).nodup_iff.mpr hvalid.windows_nodup
  case main =>
    rw [numbered_ids]
    exact (hperm.map (·.id)).mem_iff.mpr hvalid.main

/-! ## Changes of one window -/

variable {desktop : Desktop} {state state' : AppState}

theorem AppState.Standing.change (h : state.Standing) {native : Nat}
    {f : DesktopWindow → DesktopWindow} (hnative : ∀ window, (f window).native = window.native)
    (hid : ∀ window, (f window).id = window.id) : (state.change native f).Standing := by
  have hnatives : (state.change native f).windows.map (·.native) =
      state.windows.map (·.native) := by
    rw [AppState.change, List.map_map]
    refine List.map_congr_left fun window _ => ?_
    show (if window.native = native then f window else window).native = window.native
    split
    · exact hnative window
    · rfl
  have hids : (state.change native f).windows.map (·.id) = state.windows.map (·.id) := by
    rw [AppState.change, List.map_map]
    refine List.map_congr_left fun window _ => ?_
    show (if window.native = native then f window else window).id = window.id
    split
    · exact hid window
    · rfl
  constructor
  case natives => exact hnatives ▸ h.natives
  case known =>
    intro window hwindow
    have hmem := List.mem_map_of_mem (f := (·.native)) hwindow
    rw [hnatives] at hmem
    obtain ⟨other, hother, heq⟩ := List.mem_map.mp hmem
    exact heq ▸ h.known other hother
  case ids => exact hids ▸ h.ids
  case main => exact hids ▸ h.main

/-- An effect for a window keeps its identifiers. -/
theorem window_effect_keeps {effect : Effect Json} {f : DesktopWindow → DesktopWindow}
    (h : windowEffect effect = some f) (window : DesktopWindow) :
    (f window).native = window.native ∧ (f window).id = window.id := by
  unfold windowEffect at h
  split at h <;> cases h <;> (try split) <;> exact ⟨rfl, rfl⟩

/-- A window that was found by its identifier. -/
theorem target_some {id : String} {window : DesktopWindow} (h : state.target id = some window) :
    window ∈ state.windows ∧ window.id = id :=
  ⟨List.mem_of_find?_eq_some h, by simpa using List.find?_some h⟩

/-- Another window than the main one is not the only one. -/
theorem AppState.Standing.not_alone (h : state.Standing) {window : DesktopWindow}
    (hwindow : window ∈ state.windows) (hother : window.id ≠ mainWindowId) :
    state.windows.length ≠ 1 := by
  intro hlength
  obtain ⟨only, honly⟩ := List.length_eq_one_iff.mp hlength
  obtain ⟨main, hmain, hid⟩ := List.mem_map.mp h.main
  rw [honly, List.mem_singleton] at hwindow hmain
  exact hother (by rw [hwindow, ← hmain, hid])

/-- Another window goes. -/
theorem AppState.Standing.remove (h : state.Standing) {window : DesktopWindow}
    (hwindow : window ∈ state.windows) (hother : window.id ≠ mainWindowId) :
    (state.remove window.native).Standing where
  natives := h.natives.sublist (List.filter_sublist.map _)
  known other hmem := h.known other (List.mem_of_mem_filter hmem)
  ids := h.ids.sublist (List.filter_sublist.map _)
  main := by
    obtain ⟨main, hmain, hid⟩ := List.mem_map.mp h.main
    refine List.mem_map.mpr ⟨main, List.mem_filter.mpr ⟨hmain, ?_⟩, hid⟩
    have hne : main.native ≠ window.native := by
      intro heq
      exact hother (List.inj_on_of_nodup_map h.natives hmain hwindow heq ▸ hid)
    simpa using hne

/-! ## Effects and other events -/

/-- What comes of a step that ends the application exactly if `ends`. -/
structure Follows (state : AppState) (ends : Prop) (state' : AppState) : Prop where
  standing : state'.Standing
  workstation : state'.workstation = state.workstation
  closeBehavior : state'.shell.closeBehavior = state.shell.closeBehavior
  exiting : state'.exiting = true ↔ state.exiting = true ∨ ends

/-- A step that changes one window. -/
theorem AppState.Standing.follows_change (h : state.Standing) {native : Nat}
    {f : DesktopWindow → DesktopWindow}
    (hkeeps : ∀ window, (f window).native = window.native ∧ (f window).id = window.id) :
    Follows state False (state.change native f) where
  standing := h.change (fun window => (hkeeps window).1) fun window => (hkeeps window).2
  workstation := rfl
  closeBehavior := rfl
  exiting := (or_false _).symm ▸ Iff.rfl

/-- A step that ends the application. -/
theorem AppState.Standing.follows_exit (h : state.Standing) {ends : Prop} (hends : ends) :
    Follows state ends state.exit where
  standing := ⟨h.natives, h.known, h.ids, h.main⟩
  workstation := rfl
  closeBehavior := rfl
  exiting := ⟨fun _ => .inr hends, fun _ => rfl⟩

theorem Follows.congr {ends ends' : Prop} (h : Follows state ends state') (hiff : ends ↔ ends') :
    Follows state ends' state' :=
  ⟨h.standing, h.workstation, h.closeBehavior, h.exiting.trans (or_congr_right hiff)⟩

/-- Closing the main window hides it or ends the application; another window is destroyed. -/
theorem close_window_follows (h : state.Standing) {id : String} {window : DesktopWindow}
    (htarget : state.target id = some window) :
    Follows state (id = mainWindowId ∧ state.keepAliveWithoutWindows = false)
      (state.closeWindow id window.native) := by
  obtain ⟨hwindow, rfl⟩ := target_some htarget
  unfold AppState.closeWindow
  by_cases hmain : window.id = mainWindowId
  · cases halive : state.keepAliveWithoutWindows with
    | true =>
        rw [if_pos ⟨.inl hmain, rfl⟩]
        exact (h.follows_change (f := DesktopWindow.hidden) fun window => ⟨rfl, rfl⟩).congr
          ⟨False.elim, fun hends => nomatch hends.2⟩
    | false =>
        rw [if_neg (by simp), if_pos (.inl hmain)]
        exact h.follows_exit ⟨hmain, rfl⟩
  · have halone := h.not_alone hwindow hmain
    rw [if_neg (fun hall => hall.1.elim hmain halone), if_neg (fun hany => hany.elim hmain halone)]
    exact {
      standing := h.remove hwindow hmain
      workstation := rfl
      closeBehavior := rfl
      exiting := by simp [AppState.remove, hmain] }

/-- What is left to the windows is an effect that they can apply: `unreachable!` is not reached. -/
theorem apply_to_windows_follows (h : state.Standing) {effect : Effect Json}
    (hkind : ¬ ofTray effect.kind) : ∃ state' continues,
      state.applyToWindows effect = some (state', continues) ∧
      Follows state (state.EndsBy effect) state' ∧
      (continues = false → effect.kind = .quitApplication) := by
  unfold AppState.applyToWindows AppState.EndsBy
  by_cases hquit : effect.kind = .quitApplication
  · exact ⟨_, _, if_pos hquit, h.follows_exit (.inl hquit), fun _ => hquit⟩
  · rw [if_neg hquit]
    cases htarget : state.target effect.windowId with
    | none =>
        refine ⟨_, _, rfl, ⟨h, rfl, rfl, ?_⟩, fun hcontinues => nomatch hcontinues⟩
        obtain ⟨main, hmain, hid⟩ := List.mem_map.mp h.main
        have hother : effect.windowId ≠ mainWindowId := by
          intro heq
          have hnone := List.find?_eq_none.mp htarget main hmain
          simp [heq, hid] at hnone
        simp [hquit, hother]
    | some window =>
        dsimp only
        cases heffect : windowEffect effect with
        | some f =>
            have hclose : effect.kind ≠ .closeWindow := by
              intro hclose
              simp [windowEffect, hclose] at heffect
            exact ⟨_, _, rfl, (h.follows_change (window_effect_keeps heffect)).congr
              (by simp [hquit, hclose]), fun hcontinues => nomatch hcontinues⟩
        | none =>
            have hclose : effect.kind = .closeWindow := by
              unfold ofTray at hkind
              cases hcase : effect.kind <;> simp_all [windowEffect]
            dsimp only
            rw [if_pos hclose]
            exact ⟨_, _, rfl, (close_window_follows h htarget).congr (by simp [hclose]),
              fun hcontinues => nomatch hcontinues⟩

/-- The same window state with another native shell. -/
theorem AppState.Standing.withShell (h : state.Standing) (shell : NativeShell) :
    ({ state with shell } : AppState).Standing := ⟨h.natives, h.known, h.ids, h.main⟩

/-- The effects of a response: none of them makes the loop panic. -/
theorem apply_effects_follows (effects : List (Effect Json)) (h : state.Standing) :
    ∃ state', state.applyEffects desktop effects = some state' ∧
      Follows state (∃ effect ∈ effects, state.EndsBy effect) state' := by
  induction effects generalizing state with
  | nil => exact ⟨state, rfl, h, rfl, rfl, by simp⟩
  | cons effect rest ih =>
      have hclose := @apply_effect_close_behavior desktop state.shell effect
      have htray := @apply_effect_of_tray desktop state.shell effect
      have hwindows := @apply_effect_of_windows desktop state.shell effect
      rw [AppState.applyEffects]
      generalize state.shell.applyEffect desktop effect = result at hclose htray hwindows
      obtain ⟨answer, shell⟩ := result
      have hstanding := h.withShell shell
      -- where the native shell has applied the effect, or refused it
      have hskipped (hanswer : answer ≠ .ok false) : ∃ state',
          ({ state with shell } : AppState).applyEffects desktop rest = some state' ∧
            Follows state (∃ other ∈ effect :: rest, state.EndsBy other) state' := by
        have hnot : ¬ state.EndsBy effect := by
          intro hends
          have hkind : effect.kind = .quitApplication ∨ effect.kind = .closeWindow :=
            hends.imp_right And.left
          have hleft := hwindows (by unfold ofTray; obtain hkind | hkind := hkind <;> simp [hkind])
            (by unfold ofLauncher; obtain hkind | hkind := hkind <;> simp [hkind])
          exact hanswer (congrArg Prod.fst hleft)
        obtain ⟨final, hfinal, hrest⟩ := ih hstanding
        refine ⟨final, hfinal, hrest.standing, hrest.workstation,
          hrest.closeBehavior.trans hclose, hrest.exiting.trans (or_congr_right ?_)⟩
        rw [List.exists_mem_cons_iff]
        exact ⟨.inr, fun hany => hany.resolve_left hnot⟩
      cases answer with
      | error error => exact hskipped nofun
      | ok applied =>
          cases applied with
          | true => exact hskipped (by simp)
          | false =>
              have hkind : ¬ ofTray effect.kind := fun htray' => htray htray' rfl
              obtain ⟨middle, continues, hmiddle, hfollows, hquit⟩ :=
                apply_to_windows_follows hstanding hkind
              dsimp only
              rw [hmiddle]
              cases continues with
              | false =>
                  refine ⟨middle, rfl, hfollows.standing, hfollows.workstation,
                    hfollows.closeBehavior.trans hclose,
                    hfollows.exiting.trans (or_congr_right ?_)⟩
                  exact ⟨fun hends => ⟨effect, List.mem_cons_self, hends⟩,
                    fun _ => .inl (hquit rfl)⟩
              | true =>
                  obtain ⟨final, hfinal, hrest⟩ := ih hfollows.standing
                  refine ⟨final, hfinal, hrest.standing,
                    hrest.workstation.trans hfollows.workstation,
                    hrest.closeBehavior.trans (hfollows.closeBehavior.trans hclose), ?_⟩
                  have hsame (other : Effect Json) : middle.EndsBy other ↔ state.EndsBy other := by
                    unfold AppState.EndsBy AppState.keepAliveWithoutWindows
                    rw [hfollows.workstation]
                  rw [hrest.exiting, hfollows.exiting, List.exists_mem_cons_iff]
                  simp only [hsame, or_assoc]
                  rfl

/-- A request to close a window. -/
theorem close_requested_follows (h : state.Standing) (native : Nat) :
    Follows state (state.EndsByClosing native) (state.closeRequested native) := by
  unfold AppState.closeRequested AppState.EndsByClosing
  cases hfound : state.window native with
  | none => exact h.follows_exit trivial
  | some window =>
      have hwindow : window ∈ state.windows := List.mem_of_find?_eq_some hfound
      dsimp only
      by_cases hmain : window.id = mainWindowId
      · by_cases hstays : state.shell.closeBehavior = .hide ∨ state.keepAliveWithoutWindows = true
        · rw [if_pos ⟨hmain, hstays⟩]
          refine (h.follows_change (f := DesktopWindow.hidden) fun window => ⟨rfl, rfl⟩).congr
            ⟨False.elim, ?_⟩
          rintro ⟨-, hexit, hlet⟩
          simp [hexit, hlet] at hstays
        · rw [if_neg fun hall => hstays hall.2, if_pos (.inl hmain)]
          obtain ⟨hexit, hlet⟩ := not_or.mp hstays
          refine h.follows_exit ⟨hmain, ?_, by simpa using hlet⟩
          cases hbehavior : state.shell.closeBehavior with
          | exit => rfl
          | hide => exact absurd hbehavior hexit
      · have halone := h.not_alone hwindow hmain
        rw [if_neg fun hall => hmain hall.1, if_neg fun hany => hany.elim hmain halone]
        refine (h.follows_change (f := fun window => { window.hidden with focused := false })
          fun window => ⟨rfl, rfl⟩).congr ⟨False.elim, fun hends => hmain hends.1⟩

/-- The focus moves to a window or to the modal window in front of it. -/
theorem focus_changed_follows (h : state.Standing) (native : Nat) (gained : Bool) :
    Follows state False (state.focusChanged desktop native gained) := by
  have hchange (native : Nat) (focused : Bool) :
      Follows state False (state.change native fun window => { window with focused }) :=
    h.follows_change fun window => ⟨rfl, rfl⟩
  unfold AppState.focusChanged
  cases state.window native with
  | none => exact ⟨h, rfl, rfl, (or_false _).symm ▸ Iff.rfl⟩
  | some window =>
      dsimp only
      split
      · split
        · exact hchange _ true
        · exact hchange native true
      · exact hchange native false

/-- The shell of an accepted bootstrap is accepted. -/
theorem shell_accepted {platform : Platform} {bootstrap : Bootstrap}
    (h : bootstrap.validate platform = .ok ()) : bootstrap.shell.validate = .ok () := by
  unfold Bootstrap.validate at h
  obtain ⟨⟨⟩, -, h⟩ := except_bind_ok.mp h
  obtain ⟨⟨⟩, -, h⟩ := except_bind_ok.mp h
  obtain ⟨⟨⟩, -, h⟩ := except_bind_ok.mp h
  obtain ⟨⟨⟩, -, h⟩ := except_bind_ok.mp h
  obtain ⟨commands, -, h⟩ := except_bind_ok.mp h
  obtain ⟨identifiers, -, h⟩ := except_bind_ok.mp h
  obtain ⟨⟨⟩, -, h⟩ := except_bind_ok.mp h
  obtain ⟨⟨⟩, -, h⟩ := except_bind_ok.mp h
  obtain ⟨⟨⟩, hshell, -⟩ := except_bind_ok.mp h
  exact hshell

/-- The native shell of an accepted bootstrap is prepared without a panic. -/
theorem prepare_isSome {platform : Platform} {bootstrap : Bootstrap}
    (h : bootstrap.validate platform = .ok ()) (shortcuts : Except String (List (Nat × String)))
    (tray : Except String Unit) : (NativeShell.prepare shortcuts tray bootstrap).isSome := by
  cases shortcuts with
  | error error => rfl
  | ok shortcutIds => exact Option.isSome_map.trans (prepare_tray_isSome (shell_accepted h))

/-- One event: no panic, the main window is still there, and the application ends exactly by the
events that end it. -/
theorem next_standing {platform : Platform} {event : HostEvent} (h : state.Standing)
    (hreloads : Reloads platform event) :
    ∃ state', state.next desktop event = some state' ∧ state'.Standing ∧
      (state'.exiting = true ↔ state.exiting = true ∨ state.Ends event) := by
  cases event with
  | applyEffects effects =>
      obtain ⟨state', hnext, hfollows⟩ := apply_effects_follows effects h
      exact ⟨state', hnext, hfollows.standing, hfollows.exiting⟩
  | exit => exact ⟨_, rfl, (h.follows_exit trivial).standing, (h.follows_exit trivial).exiting⟩
  | closeRequested native =>
      have hfollows := close_requested_follows h native
      exact ⟨_, rfl, hfollows.standing, hfollows.exiting⟩
  | reconfigure bootstrap answers =>
      obtain ⟨hvalid, hmade⟩ := hreloads
      obtain ⟨prepared, hprepared⟩ := Option.isSome_iff_exists.mp
        (prepare_isSome hvalid answers.shortcuts answers.tray)
      refine ⟨_, Option.map_eq_some_iff.mpr ⟨prepared, hprepared, rfl⟩,
        configure_standing (Bootstrap.validate_ok hvalid) rfl hmade, ?_⟩
      exact (or_false _).symm ▸ Iff.rfl
  | focused native gained =>
      have hfollows := @focus_changed_follows desktop _ h native gained
      exact ⟨_, rfl, hfollows.standing, hfollows.exiting⟩

/-- A loop that has begun has the main window. -/
theorem resumed_standing {platform : Platform} {answers : Answers} {bootstrap : Bootstrap}
    (hvalid : bootstrap.validate platform = .ok ())
    (hresumed : resumed answers bootstrap = some (.ok state)) :
    state.Standing ∧ state.exiting = false := by
  obtain ⟨prepared, -, hok⟩ := Option.map_eq_some_iff.mp hresumed
  obtain ⟨shell, -, hok⟩ := except_bind_ok.mp hok
  obtain ⟨created, hcreated, hok⟩ := except_bind_ok.mp hok
  cases hok
  exact ⟨configure_standing (Bootstrap.validate_ok hvalid) rfl ⟨created, hcreated⟩, rfl⟩

/-- What a desktop answers on which everything works. -/
def workingAnswers : Answers where
  shortcuts := .ok []
  tray := .ok ()
  create _ _ := .ok ()
  restored _ := none

/-- A desktop without a launcher entry. -/
def plainDesktop : Desktop where
  setBadge _ _ := .ok false
  setProgress _ := .ok false
  setTrayVisible _ := .ok ()
  reportsVisibility := true

/-- The worker closes the settings, the project is reloaded, and the main window is closed. -/
def notesEvents : List HostEvent :=
  [.applyEffects [⟨.closeWindow, "settings", .null⟩], .reconfigure notesSettings workingAnswers,
    .applyEffects [⟨.closeWindow, "main", .null⟩]]

end PamDesktop.Shell
