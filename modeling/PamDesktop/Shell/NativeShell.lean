import PamDesktop.Shell.MenuUpdates
import PamDesktop.Protocol.Wire

/-!
# The native shell

`NativeShell::prepare` and `NativeShell::apply_effect` with the tray of Linux: the effects that are
applied before any window is looked for. What the desktop answers is a parameter (`Desktop`).
Read `apply_effect_answer` first: which kinds of effects are left to the windows.
-/

namespace PamDesktop.Shell

open Foundations Protocol

/-- `Value::get`. -/
def payloadMember (key : String) : Json → Option Json
  | .object members => members.lookup key
  | _ => none

/-- `Value::as_bool`. -/
def asBool : Json → Option Bool
  | .bool value => some value
  | _ => none

/-- `Value::as_str`. -/
def asText : Json → Option String
  | .string value => some value
  | _ => none

/-- `Value::as_u64`. -/
def asCount : Json → Option Nat
  | .number value => if 0 ≤ value ∧ value < 18446744073709551616 then some value.toNat else none
  | _ => none

/-- What the desktop answers: the launcher entry to a badge, and to the payload of a progress
effect (a share in floating point and a state), the tray when it is shown or hidden, and whether
the windowing system can tell that a window is visible. -/
structure Desktop where
  setBadge : Bool → Nat → Except String Bool
  setProgress : Json → Except String Bool
  setTrayVisible : Bool → Except String Unit
  reportsVisibility : Bool

/-- `PlatformTray`, as on Linux. -/
structure PlatformTray where
  items : List MenuItemConfig
  visible : Bool

structure NativeShell where
  shortcutIds : List (Nat × String)
  tray : Option PlatformTray
  closeBehavior : TrayCloseBehavior

/-- `NativeShell::empty`. -/
def NativeShell.empty : NativeShell := ⟨[], none, .exit⟩

/-- The tray of an application with the menu that it shows, or `none` where `expect` finds no such
menu. -/
def prepareTray (shell : ShellConfig) : Option (Option PlatformTray) :=
  match shell.tray with
  | none => some none
  | some tray => (shell.menus.find? fun menu => menu.id == tray.menuId).map fun menu =>
      some ⟨menu.items, true⟩

/-- `NativeShell::prepare`, with the identifiers of the shortcuts that could be registered. A panic
is `none`. -/
def NativeShell.prepare (shortcuts : Except String (List (Nat × String)))
    (trayCreated : Except String Unit) (bootstrap : Bootstrap) :
    Option (Except String NativeShell) :=
  match shortcuts with
  | .error error => some (.error error)
  | .ok shortcutIds =>
      (prepareTray bootstrap.shell).map fun tray =>
        match tray, trayCreated with
        | some _, .error error => .error error
        | tray, _ => .ok
          { shortcutIds := shortcutIds
            tray := tray
            closeBehavior := (bootstrap.shell.tray.map (·.closeBehavior)).getD .exit }

inductive ShellEvent where
  | menuSelected (id : String)
  | trayActivated (button : Nat)
  | shortcut (nativeId : Nat) (state : Json)

/-- `NativeShell::dispatch`: the name and the payload of the event for the gateway. -/
def NativeShell.dispatch (shell : NativeShell) : ShellEvent → Option (String × Json)
  | .menuSelected id => some ("pam.menu.selected", .object [("id", .string id)])
  | .trayActivated button => some ("pam.tray.activated", .object [("button", .number button)])
  | .shortcut nativeId state => (shell.shortcutIds.lookup nativeId).map fun id =>
      ("pam.shortcut.changed", .object [("id", .string id), ("state", state)])

/-- A member of the payload, or the error that it is missing. -/
def required {α : Type} (payload : Json) (key : String) (read : Json → Option α) (error : String) :
    Except String α :=
  match (payloadMember key payload).bind read with
  | some value => .ok value
  | none => .error error

/-- The update that a menu effect asks for. -/
def menuUpdate (effect : Effect Json) : Except String MenuUpdate :=
  match effect.kind with
  | .setMenuItemEnabled => do
      let id ← required effect.payload "id" asText "menu enabled effect is missing its item id"
      let enabled ← required effect.payload "enabled" asBool
        "menu enabled effect is missing its state"
      .ok (.enabled id enabled)
  | _ => do
      let id ← required effect.payload "id" asText "menu checked effect is missing its item id"
      let checked ← required effect.payload "checked" asBool
        "menu checked effect is missing its state"
      .ok (.checked id checked)

/-- The effects on a tray that is there. -/
def PlatformTray.applyEffect (desktop : Desktop) (tray : PlatformTray) (effect : Effect Json) :
    Except String Bool × PlatformTray :=
  match effect.kind with
  | .setMenuItemEnabled | .setMenuItemChecked =>
      match menuUpdate effect with
      | .error error => (.error error, tray)
      | .ok update =>
          match update.apply tray.items with
          | (.error error, _) => (.error error, tray)
          | (.ok (), items) => (.ok true, { tray with items })
  | .setTrayVisible =>
      match required effect.payload "visible" asBool
          "tray visibility effect is missing its state" with
      | .error error => (.error error, tray)
      | .ok visible =>
          match desktop.setTrayVisible visible with
          | .error error => (.error error, tray)
          | .ok () => (.ok true, { tray with visible })
  | _ => (.ok false, tray)

/-- `NativeShell::apply_effect`. -/
def NativeShell.applyEffect (desktop : Desktop) (shell : NativeShell) (effect : Effect Json) :
    Except String Bool × NativeShell :=
  match effect.kind with
  | .setApplicationBadge =>
      ((do
        let visible ← required effect.payload "visible" asBool
          "application badge effect is missing visibility"
        let count ← required effect.payload "count" asCount
          "application badge effect is missing count"
        if 9999 < count then .error "application badge count exceeds 9,999"
        else desktop.setBadge visible count), shell)
  | .setTaskbarProgress => (desktop.setProgress effect.payload, shell)
  | kind =>
      match shell.tray with
      | none =>
          if kind = .setMenuItemEnabled ∨ kind = .setMenuItemChecked ∨ kind = .setTrayVisible then
            (.error "native shell effects require a configured tray", shell)
          else (.ok false, shell)
      | some tray =>
          let (answer, tray) := tray.applyEffect desktop effect
          (answer, { shell with tray := some tray })

/-! ## What is left to the windows -/

/-- The effects that the native shell applies, or refuses, itself. -/
def ofTray (kind : EffectKind) : Prop :=
  kind = .setMenuItemEnabled ∨ kind = .setMenuItemChecked ∨ kind = .setTrayVisible

/-- The effects that a desktop without a launcher entry leaves to the windows. -/
def ofLauncher (kind : EffectKind) : Prop :=
  kind = .setApplicationBadge ∨ kind = .setTaskbarProgress

variable {desktop : Desktop} {shell : NativeShell} {effect : Effect Json}

/-- An effect on the tray that is there is never left to the windows. -/
theorem tray_effect_answer (tray : PlatformTray) (h : ofTray effect.kind) :
    (tray.applyEffect desktop effect).1 ≠ .ok false := by
  unfold PlatformTray.applyEffect
  obtain hkind | hkind | hkind := h
  all_goals
    rw [hkind]
    dsimp only
    repeat' split
    all_goals simp

/-- The effects of the tray are never left to the windows. -/
theorem apply_effect_of_tray (h : ofTray effect.kind) :
    (shell.applyEffect desktop effect).1 ≠ .ok false := by
  cases htray : shell.tray with
  | none => obtain hkind | hkind | hkind := h <;> simp [NativeShell.applyEffect, hkind, htray]
  | some tray =>
      have hanswer := @tray_effect_answer desktop effect tray h
      obtain hkind | hkind | hkind := h <;> simpa [NativeShell.applyEffect, hkind, htray]

/-- All others are left to the windows, and the native shell is as before. -/
theorem apply_effect_of_windows (htray : ¬ ofTray effect.kind)
    (hlauncher : ¬ ofLauncher effect.kind) :
    shell.applyEffect desktop effect = (.ok false, shell) := by
  obtain ⟨shortcutIds, tray, closeBehavior⟩ := shell
  unfold ofTray at htray
  unfold ofLauncher at hlauncher
  cases tray <;> cases hkind : effect.kind <;>
    simp_all [NativeShell.applyEffect, PlatformTray.applyEffect]

/-- No effect changes what closing the main window does. -/
theorem apply_effect_close_behavior :
    (shell.applyEffect desktop effect).2.closeBehavior = shell.closeBehavior := by
  unfold NativeShell.applyEffect
  split
  · rfl
  · rfl
  · split
    · split <;> rfl
    · rfl

/-! ## The tray of an accepted shell -/

/-- The identifiers that `validate` collects are those of the menus. -/
theorem validate_menus_ids {menuIds ids found : List String} {count total : Nat}
    {menus : List MenuConfig} (h : validateMenus menuIds ids count menus = .ok (found, total)) :
    ∀ name, name ∈ found ↔ name ∈ menuIds ∨ name ∈ menus.map (·.id) := by
  induction menus generalizing menuIds ids count with
  | nil =>
      cases h
      simp
  | cons menu rest ih =>
      rw [validateMenus] at h
      obtain ⟨⟨ids', count'⟩, -, h⟩ := except_bind_ok.mp h
      dsimp only at h
      split at h
      · cases h
      · intro name
        rw [ih h name, List.mem_cons, List.map_cons, List.mem_cons]
        tauto

/-- The menu of a tray that was accepted is there: `expect` does not panic. -/
theorem prepare_tray_isSome {shell : ShellConfig} (h : shell.validate = .ok ()) :
    (prepareTray shell).isSome := by
  unfold ShellConfig.validate at h
  obtain ⟨⟨menuIds, count⟩, hmenus, h⟩ := except_bind_ok.mp h
  obtain ⟨⟨⟩, -, h⟩ := except_bind_ok.mp h
  obtain ⟨⟨⟩, -, h⟩ := except_bind_ok.mp h
  obtain ⟨⟨⟩, -, h⟩ := except_bind_ok.mp h
  unfold prepareTray
  cases htray : shell.tray with
  | none => rfl
  | some tray =>
      simp only [htray] at h
      obtain ⟨⟨⟩, -, h⟩ := except_bind_ok.mp h
      split at h
      · cases h
      · rename_i hmem
        have hmem : tray.menuId ∈ menuIds := by simpa using hmem
        obtain hmem | hmem := (validate_menus_ids hmenus tray.menuId).mp hmem
        · cases hmem
        · obtain ⟨menu, hmenu, hid⟩ := List.mem_map.mp hmem
          rw [Option.isSome_map, List.find?_isSome]
          exact ⟨menu, hmenu, by simpa using hid⟩

end PamDesktop.Shell
