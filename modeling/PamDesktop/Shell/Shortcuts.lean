import Mathlib.Data.List.Nodup
import PamDesktop.Protocol.Bootstrap

/-!
# Global shortcuts

What the accelerators of an accepted shell denote. `ShellConfig::validate` compares lower-case
texts, the host goes by the modifiers that the names stand for. `shortcuts_distinct_iff` says for
which accepted shells no chord is taken twice.
-/

namespace PamDesktop.Shell.Shortcuts

open Protocol

inductive Modifier where
  | control | super | alt | shift
deriving DecidableEq

/-- The names of the control key. -/
def controlNames : List String := ["ctrl", "control", "cmdorctrl"]

/-- The names of the super key. -/
def superNames : List String := ["cmd", "command", "super"]

/-- The table in `shortcut`, on a token in lower case. -/
def hostModifier (name : String) : Option Modifier :=
  if controlNames.contains name then some .control
  else if superNames.contains name then some .super
  else if name = "alt" then some .alt
  else if name = "shift" then some .shift
  else none

/-- The tokens of an accelerator before the last, in lower case. -/
def modifierNames (accelerator : String) : List String :=
  (accelerator.toList.splitOn '+').dropLast.map fun token => asciiLowercase (String.ofList token)

/-- The modifiers of an accelerator, in the order in which it names them. -/
def modifiers (accelerator : String) : List Modifier :=
  (modifierNames accelerator).filterMap hostModifier

/-- The key of an accelerator. -/
def key (accelerator : String) : String :=
  asciiLowercase (String.ofList ((accelerator.toList.splitOn '+').getLast?.getD []))

/-- Two accelerators denote one chord: the same set of modifiers with the same key. -/
def SameChord (first second : String) : Prop :=
  (∀ modifier, modifier ∈ modifiers first ↔ modifier ∈ modifiers second) ∧ key first = key second

/-- Every shortcut has a chord of its own, and names each of its modifiers once. -/
structure Distinct (shell : ShellConfig) : Prop where
  chords : shell.shortcuts.Pairwise fun first second =>
    ¬ SameChord first.accelerator second.accelerator
  modifiers : ∀ shortcut ∈ shell.shortcuts, (modifiers shortcut.accelerator).Nodup

/-- Two accelerators differ only in the order of the modifiers and in their names. -/
def Respelled (first second : String) : Prop :=
  (modifiers first).Perm (modifiers second) ∧ key first = key second

/-- No accelerator names a key by two of its names, and no two are one respelled. -/
structure PlainlySpelled (shell : ShellConfig) : Prop where
  names : ∀ shortcut ∈ shell.shortcuts, ∀ aliases ∈ [controlNames, superNames],
    (modifierNames shortcut.accelerator).countP aliases.contains ≤ 1
  accelerators : shell.shortcuts.Pairwise fun first second =>
    ¬ Respelled first.accelerator second.accelerator

/-! ## What is accepted -/

theorem validate_modifiers_nodup {value : String} {seen : List String}
    {tokens : List (List Char)} (h : validateModifiers value seen tokens = .ok ()) :
    (tokens.map fun token => asciiLowercase (String.ofList token)).Nodup ∧
      ∀ token ∈ tokens, asciiLowercase (String.ofList token) ∉ seen := by
  induction tokens generalizing seen with
  | nil => exact ⟨List.nodup_nil, fun token htoken => absurd htoken List.not_mem_nil⟩
  | cons first rest ih =>
      unfold validateModifiers at h
      dsimp only at h
      split at h
      · cases h
      · rename_i haccepted
        rw [Bool.or_eq_true, not_or, List.contains_iff_mem] at haccepted
        obtain ⟨hnodup, hfresh⟩ := ih h
        refine ⟨?_, ?_⟩
        · rw [List.map_cons, List.nodup_cons]
          refine ⟨fun hmem => ?_, hnodup⟩
          obtain ⟨token, htoken, heq⟩ := List.mem_map.mp hmem
          exact hfresh token htoken (heq ▸ List.mem_cons_self)
        · intro token htoken
          obtain heq | htoken := List.mem_cons.mp htoken
          · rw [heq]
            exact haccepted.2
          · exact fun hmem => hfresh token htoken (List.mem_cons_of_mem _ hmem)

/-- An accepted accelerator has no modifier name twice. -/
theorem validate_accelerator_nodup {accelerator : String}
    (h : validateAccelerator accelerator = .ok ()) : (modifierNames accelerator).Nodup := by
  unfold validateAccelerator at h
  split at h
  · cases h
  · dsimp only at h
    split at h
    · cases h
    · obtain ⟨_, hmodifiers, _⟩ := except_bind_ok.mp h
      exact (validate_modifiers_nodup hmodifiers).1

theorem validate_shortcuts_accelerator {ids accelerators : List String}
    {shortcuts : List GlobalShortcutConfig}
    (h : validateShortcuts ids accelerators shortcuts = .ok ()) :
    ∀ shortcut ∈ shortcuts, validateAccelerator shortcut.accelerator = .ok () := by
  induction shortcuts generalizing ids accelerators with
  | nil => exact fun shortcut hshortcut => absurd hshortcut List.not_mem_nil
  | cons first rest ih =>
      obtain ⟨_, hfirst, h⟩ := except_bind_ok.mp h
      obtain ⟨_, _, haccelerator⟩ := except_bind_ok.mp hfirst
      split at h
      · cases h
      · split at h
        · cases h
        · intro shortcut hshortcut
          obtain heq | hshortcut := List.mem_cons.mp hshortcut
          · rw [heq]
            exact haccelerator
          · exact ih h shortcut hshortcut

/-- The shortcuts of an accepted shell have accepted accelerators. -/
theorem validate_shell_accelerator {shell : ShellConfig} (h : shell.validate = .ok ()) :
    ∀ shortcut ∈ shell.shortcuts, validateAccelerator shortcut.accelerator = .ok () := by
  obtain ⟨⟨menuIds, count⟩, _, h⟩ := except_bind_ok.mp h
  obtain ⟨_, _, h⟩ := except_bind_ok.mp h
  obtain ⟨_, _, h⟩ := except_bind_ok.mp h
  obtain ⟨_, _, h⟩ := except_bind_ok.mp h
  have hshortcuts : validateShortcuts [] [] shell.shortcuts = .ok () := by
    split at h
    · obtain ⟨_, _, h⟩ := except_bind_ok.mp h
      split at h
      · cases h
      · obtain ⟨_, hshortcuts, _⟩ := except_bind_ok.mp h
        exact hshortcuts
    · obtain ⟨_, _, h⟩ := except_bind_ok.mp h
      obtain ⟨_, hshortcuts, _⟩ := except_bind_ok.mp h
      exact hshortcuts
  exact validate_shortcuts_accelerator hshortcuts

/-! ## What the names stand for -/

/-- The names of a modifier. -/
def names : Modifier → List String
  | .control => controlNames
  | .super => superNames
  | .alt => ["alt"]
  | .shift => ["shift"]

/-- No name stands for two modifiers. -/
theorem host_modifier_iff {name : String} {modifier : Modifier} :
    hostModifier name = some modifier ↔ name ∈ names modifier := by
  constructor
  · intro h
    unfold hostModifier at h
    split at h
    · rename_i hcontrol
      cases h
      exact List.contains_iff_mem.mp hcontrol
    · split at h
      · rename_i hsuper
        cases h
        exact List.contains_iff_mem.mp hsuper
      · split at h
        · rename_i halt
          cases h
          exact List.mem_singleton.mpr halt
        · split at h
          · rename_i hshift
            cases h
            exact List.mem_singleton.mpr hshift
          · cases h
  · intro h
    have hall : ∀ modifier ∈ [Modifier.control, .super, .alt, .shift],
        ∀ name ∈ names modifier, hostModifier name = some modifier := by decide
    refine hall modifier ?_ name h
    cases modifier <;> decide

/-- How often an accelerator names a modifier. -/
theorem count_modifiers (accelerator : String) (modifier : Modifier) :
    (modifiers accelerator).count modifier =
      (modifierNames accelerator).countP (names modifier).contains := by
  rw [modifiers, List.count, List.countP_filterMap]
  refine List.countP_congr fun name _ => ?_
  rw [List.contains_iff_mem, ← host_modifier_iff]
  cases hostModifier name with
  | none => simp
  | some other => simp

/-- A modifier is named once if none of its two names are there: the same name is not. -/
theorem modifiers_nodup_iff {accelerator : String}
    (haccepted : validateAccelerator accelerator = .ok ()) :
    (modifiers accelerator).Nodup ↔ ∀ aliases ∈ [controlNames, superNames],
      (modifierNames accelerator).countP aliases.contains ≤ 1 := by
  have hsingle : ∀ name : String, (modifierNames accelerator).countP [name].contains ≤ 1 := by
    intro name
    have hcount := List.nodup_iff_count.mp (validate_accelerator_nodup haccepted) name
    rw [List.count] at hcount
    refine le_of_eq_of_le (List.countP_congr fun other _ => ?_) hcount
    rw [List.contains_iff_mem, List.mem_singleton, beq_iff_eq]
  rw [List.nodup_iff_count]
  constructor
  · intro h aliases haliases
    obtain heq | haliases := List.mem_cons.mp haliases
    · have hcontrol := h .control
      rw [count_modifiers] at hcontrol
      rw [heq]
      exact hcontrol
    · have hsuper := h .super
      rw [count_modifiers] at hsuper
      rw [List.mem_singleton.mp haliases]
      exact hsuper
  · intro h modifier
    rw [count_modifiers]
    cases modifier with
    | control => exact h controlNames List.mem_cons_self
    | super => exact h superNames (List.mem_cons_of_mem _ List.mem_cons_self)
    | alt => exact hsingle "alt"
    | shift => exact hsingle "shift"

/-- The shortcuts of an accepted shell have chords of their own, with every modifier named once,
exactly if they are spelled plainly. -/
theorem shortcuts_distinct_iff (shell : ShellConfig) (haccepted : shell.validate = .ok ()) :
    Distinct shell ↔ PlainlySpelled shell := by
  have hvalid := validate_shell_accelerator haccepted
  have hnames : (∀ shortcut ∈ shell.shortcuts, (modifiers shortcut.accelerator).Nodup) ↔
      ∀ shortcut ∈ shell.shortcuts, ∀ aliases ∈ [controlNames, superNames],
        (modifierNames shortcut.accelerator).countP aliases.contains ≤ 1 := by
    refine forall_congr' fun shortcut => forall_congr' fun hshortcut => ?_
    exact modifiers_nodup_iff (hvalid shortcut hshortcut)
  -- a set of modifiers without repetition is a list up to its order
  have hpairs : (∀ shortcut ∈ shell.shortcuts, (modifiers shortcut.accelerator).Nodup) →
      ((shell.shortcuts.Pairwise fun first second =>
          ¬ SameChord first.accelerator second.accelerator) ↔
        shell.shortcuts.Pairwise fun first second =>
          ¬ Respelled first.accelerator second.accelerator) := by
    intro hnodup
    refine List.Pairwise.iff_of_mem fun {first second} hfirst hsecond => ?_
    rw [SameChord, Respelled, List.perm_ext_iff_of_nodup (hnodup first hfirst)
      (hnodup second hsecond)]
  constructor
  · intro h
    exact ⟨hnames.mp h.modifiers, (hpairs h.modifiers).mp h.chords⟩
  · intro h
    have hnodup := hnames.mpr h.names
    exact ⟨(hpairs hnodup).mpr h.accelerators, hnodup⟩

/-! ## Two shells -/

/-- A shell with these shortcuts. -/
def shellWith (accelerators : List (String × String)) : ShellConfig where
  shortcuts := accelerators.map fun item => ⟨item.1, item.2⟩

/-- Two chords with one modifier more in the second. -/
theorem plain_shortcuts_distinct :
    Distinct (shellWith [("search", "Ctrl+K"), ("palette", "Ctrl+Shift+K")]) := by
  refine (shortcuts_distinct_iff _ (by decide +kernel)).mpr ⟨by decide +kernel, ?_⟩
  refine List.pairwise_pair.mpr fun h => ?_
  exact absurd h.1.length_eq (by decide +kernel)

/-- One chord in two orders is accepted. -/
theorem swapped_shortcuts_accepted :
    (shellWith [("search", "Alt+Shift+K"), ("palette", "Shift+Alt+K")]).validate = .ok () ∧
      ¬ Distinct (shellWith [("search", "Alt+Shift+K"), ("palette", "Shift+Alt+K")]) := by
  refine ⟨by decide +kernel, fun h => ?_⟩
  have hchords := List.pairwise_pair.mp h.chords
  refine hchords ⟨fun modifier => ?_, by decide +kernel⟩
  cases modifier <;> decide +kernel

end PamDesktop.Shell.Shortcuts
