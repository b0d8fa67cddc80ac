import Mathlib.Data.List.AList
import Mathlib.Data.List.DropRight
import Mathlib.Data.List.Sort
import PamDesktop.Foundations.Transition

/-!
# The command registry

`CommandRegistry` of the workstation script: `register` stores a command before it enters the
shortcuts one by one, and a disposer unregisters whatever has the identifier by then. Read
`registry_sound_iff` for the runs in which neither matters.
-/

namespace PamDesktop.Workstation

open Foundations

/-! ## Text -/

/-- A string of JavaScript: its UTF-16 code units. -/
abbrev JsString := List UInt16

/-- The code units of an ASCII text. -/
def ascii (text : String) : JsString := text.toList.map fun c => UInt16.ofNat c.toNat

/-- White space and line terminators, which `trim` removes. -/
def isSpace (unit : UInt16) : Bool :=
  (9 ≤ unit.toNat && unit.toNat ≤ 13) || (0x2000 ≤ unit.toNat && unit.toNat ≤ 0x200A) ||
    [0x20, 0xA0, 0x1680, 0x2028, 0x2029, 0x202F, 0x205F, 0x3000, 0xFEFF].contains unit.toNat

/-- `String.prototype.trim`. -/
def trim (value : JsString) : JsString := (value.dropWhile isSpace).rdropWhile isSpace

/-- `String.prototype.replaceAll`; `skip` is what remains of the last match. -/
def replaceFrom (pattern replacement : JsString) (skip : Nat) : JsString → JsString
  | [] => []
  | unit :: rest =>
      match skip with
      | skip + 1 => replaceFrom pattern replacement skip rest
      | 0 =>
          if pattern.isPrefixOf (unit :: rest) then
            replacement ++ replaceFrom pattern replacement (pattern.length - 1) rest
          else unit :: replaceFrom pattern replacement 0 rest

/-- The browser: its case mapping, and whether `navigator.platform` has `Mac` in it. -/
structure Browser where
  toLowerCase : JsString → JsString
  mac : Bool

/-- `CommandRegistry.normalize`. -/
def normalize (browser : Browser) (value : JsString) : JsString :=
  let control := ascii (if browser.mac then "meta" else "control")
  let lowered := browser.toLowerCase value
  let parts := (replaceFrom (ascii "commandorcontrol") control 0 lowered).splitOn 43
  [43].intercalate ((parts.map trim).insertionSort (· ≤ ·))

/-! ## Maps -/

/-- A `Map`, whatever the order of its entries. -/
abbrev JsMap (κ α : Type) := AList fun _ : κ => α

/-- Delete the entries for which the predicate is false. -/
def keep {κ α : Type} (predicate : κ → α → Bool) (map : JsMap κ α) : JsMap κ α :=
  ⟨map.entries.filter fun entry => predicate entry.1 entry.2,
    map.nodupKeys.sublist List.filter_sublist⟩

theorem lookup_keep {κ α : Type} [DecidableEq κ] {predicate : κ → α → Bool} {map : JsMap κ α}
    {key : κ} {value : α} :
    (keep predicate map).lookup key = some value ↔
      map.lookup key = some value ∧ predicate key value = true := by
  rw [← Option.mem_def, AList.mem_lookup_iff, ← Option.mem_def, AList.mem_lookup_iff]
  exact List.mem_filter

/-! ## Commands -/

/-- An element of `shortcuts`: a string, or what is not (nor is there one in a value that cannot be
iterated), so that the engine throws. -/
inductive Shortcut where
  | text (value : JsString)
  | other
deriving DecidableEq

/-- The argument of `register`, as far as the registry looks at it: `id` if it is a string, whether
`run` is a function, and `shortcuts ?? []`. -/
structure CommandValue where
  id : Option JsString
  run : Bool
  shortcuts : List Shortcut
deriving DecidableEq

/-- A command object. `registration` tells apart the objects of different calls. -/
structure Command where
  id : JsString
  registration : Nat
  shortcuts : List Shortcut
deriving DecidableEq

/-- The registry, and the disposers that its calls have returned, each with the identifier that it
unregisters. -/
structure Registry where
  commands : JsMap JsString Command := ∅
  shortcuts : JsMap JsString JsString := ∅
  registrations : Nat := 0
  disposers : JsMap Nat JsString := ∅
deriving DecidableEq

/-- What is thrown: by the script, or by the engine. -/
inductive Thrown where
  | typeError (message : JsString)
  | error (message : JsString)
  | engine
deriving DecidableEq

/-- The loop over the shortcuts: how it ends, and the table that it leaves. -/
def enterShortcuts (browser : Browser) (id : JsString) (table : JsMap JsString JsString) :
    List Shortcut → Except Thrown Unit × JsMap JsString JsString
  | [] => (.ok (), table)
  | .other :: _ => (.error .engine, table)
  | .text value :: rest =>
      match table.lookup (normalize browser value) with
      | some other =>
          (.error (.error (ascii "Shortcut conflict between '" ++ id ++ ascii "' and '" ++ other ++
            ascii "'.")), table)
      | none => enterShortcuts browser id (table.insert (normalize browser value) id) rest

/-- `register`: how it ends, and the registry that it leaves. -/
def Registry.register (browser : Browser) (s : Registry) (value : CommandValue) :
    Except Thrown Unit × Registry :=
  match value.id, value.run with
  | some id, true =>
      match s.commands.lookup id with
      | some _ =>
          (.error (.error (ascii "Command '" ++ id ++ ascii "' is already registered.")), s)
      | none =>
          let entered := enterShortcuts browser id s.shortcuts value.shortcuts
          let stored := { s with
            commands := s.commands.insert id ⟨id, s.registrations, value.shortcuts⟩
            shortcuts := entered.2
            registrations := s.registrations + 1 }
          match entered.1 with
          | .ok () => (.ok (), { stored with disposers := s.disposers.insert s.registrations id })
          | .error thrown => (.error thrown, stored)
  | _, _ => (.error (.typeError (ascii "A command requires id and run().")), s)

/-- `unregister`. -/
def Registry.unregister (s : Registry) (id : JsString) : Registry :=
  match s.commands.lookup id with
  | none => s
  | some _ =>
      { s with
        commands := s.commands.erase id
        shortcuts := keep (fun _ other => other != id) s.shortcuts }

/-- A call of a page: `dispose` calls what a registration has returned. -/
inductive Call where
  | register (value : CommandValue)
  | unregister (id : JsString)
  | dispose (registration : Nat)

/-- The calls on one registry. -/
def registry (browser : Browser) : System Registry Call where
  next s
    | .register value => some (s.register browser value).2
    | .unregister id => some (s.unregister id)
    | .dispose registration => (s.disposers.lookup registration).map s.unregister

/-! ## What the registry promises -/

/-- The chords of a command. -/
def chords (browser : Browser) (shortcuts : List Shortcut) : List JsString :=
  shortcuts.filterMap fun
    | .text value => some (normalize browser value)
    | .other => none

/-- The table has the chords of the commands and nothing else. -/
def Registry.Consistent (browser : Browser) (s : Registry) : Prop :=
  ∀ chord id, s.shortcuts.lookup chord = some id ↔
    ∃ command, s.commands.lookup id = some command ∧ chord ∈ chords browser command.shortcuts

/-- A registration is as it was: its command, and all that the table has for it. -/
def Undisturbed (s s' : Registry) (id : JsString) : Prop :=
  s'.commands.lookup id = s.commands.lookup id ∧
    ∀ chord, s'.shortcuts.lookup chord = some id ↔ s.shortcuts.lookup chord = some id

/-- A registration that throws changes nothing, and a disposer leaves other registrations alone. -/
def Kept (browser : Browser) (s : Registry) : Call → Prop
  | .register value => ∀ thrown s', s.register browser value = (.error thrown, s') →
      s'.commands = s.commands ∧ s'.shortcuts = s.shortcuts
  | .unregister _ => True
  | .dispose registration => ∀ s', (registry browser).next s (.dispose registration) = some s' →
      ∀ id command, s.commands.lookup id = some command → command.registration ≠ registration →
        Undisturbed s s' id

/-- The shortcuts of a new command are texts, their chords are different from each other and from
those in the table, and a disposer finds its own registration or none. -/
def Separate (browser : Browser) (s : Registry) : Call → Prop
  | .register value => ∀ id, value.id = some id → value.run = true → s.commands.lookup id = none →
      .other ∉ value.shortcuts ∧ (chords browser value.shortcuts).Nodup ∧
        ∀ chord ∈ chords browser value.shortcuts, s.shortcuts.lookup chord = none
  | .unregister _ => True
  | .dispose registration => ∀ id, s.disposers.lookup registration = some id →
      ∀ command, s.commands.lookup id = some command → command.registration = registration

variable {browser : Browser}

/-- The loop ends well exactly if the shortcuts are texts with chords that are new. -/
theorem enter_ok_iff {id : JsString} {table : JsMap JsString JsString}
    {shortcuts : List Shortcut} :
    (enterShortcuts browser id table shortcuts).1 = .ok () ↔
      .other ∉ shortcuts ∧ (chords browser shortcuts).Nodup ∧
        ∀ chord ∈ chords browser shortcuts, table.lookup chord = none := by
  induction shortcuts generalizing table with
  | nil => simp [enterShortcuts, chords]
  | cons shortcut rest ih =>
      cases shortcut with
      | other => simp [enterShortcuts]
      | text value =>
          have hchords : chords browser (.text value :: rest) =
            normalize browser value :: chords browser rest := rfl
          rw [hchords, List.nodup_cons, List.forall_mem_cons]
          cases htaken : table.lookup (normalize browser value) with
          | some other => simp [enterShortcuts, htaken]
          | none =>
              simp only [enterShortcuts, htaken, ih, List.mem_cons, reduceCtorEq, false_or]
              constructor
              · intro ⟨htexts, hdistinct, hnew⟩
                have hfresh : normalize browser value ∉ chords browser rest := fun hmem => by
                  simpa [AList.lookup_insert] using hnew _ hmem
                refine ⟨htexts, ⟨hfresh, hdistinct⟩, trivial, fun chord hmem => ?_⟩
                have hne : chord ≠ normalize browser value := fun heq => hfresh (heq ▸ hmem)
                rw [← AList.lookup_insert_ne hne]
                exact hnew chord hmem
              · intro ⟨htexts, ⟨hfresh, hdistinct⟩, _, hnew⟩
                refine ⟨htexts, hdistinct, fun chord hmem => ?_⟩
                have hne : chord ≠ normalize browser value := fun heq => hfresh (heq ▸ hmem)
                rw [AList.lookup_insert_ne hne]
                exact hnew chord hmem

/-- What the loop leaves if it ends well: the table with the chords. -/
theorem enter_lookup {id : JsString} {table : JsMap JsString JsString} {shortcuts : List Shortcut}
    (h : (enterShortcuts browser id table shortcuts).1 = .ok ()) (chord other : JsString) :
    (enterShortcuts browser id table shortcuts).2.lookup chord = some other ↔
      table.lookup chord = some other ∨ other = id ∧ chord ∈ chords browser shortcuts := by
  induction shortcuts generalizing table with
  | nil => simp [enterShortcuts, chords]
  | cons shortcut rest ih =>
      cases shortcut with
      | other => cases h
      | text value =>
          have hchords : chords browser (.text value :: rest) =
            normalize browser value :: chords browser rest := rfl
          rw [hchords, List.mem_cons]
          cases htaken : table.lookup (normalize browser value) with
          | some other => simp [enterShortcuts, htaken] at h
          | none =>
              simp only [enterShortcuts, htaken] at h ⊢
              rw [ih h]
              by_cases hchord : chord = normalize browser value
              · subst hchord
                simp only [AList.lookup_insert, htaken, reduceCtorEq, false_or, true_or, and_true]
                exact ⟨Or.rec (fun heq => (Option.some.inj heq).symm) And.left,
                  fun heq => Or.inl (congrArg some heq.symm)⟩
              · rw [AList.lookup_insert_ne hchord]
                simp [hchord]

/-- The loop of a registration that gets that far ends well exactly if its chords are new. -/
theorem separate_iff {s : Registry} {id : JsString} {shortcuts : List Shortcut}
    (hfree : s.commands.lookup id = none) :
    Separate browser s (.register ⟨some id, true, shortcuts⟩) ↔
      (enterShortcuts browser id s.shortcuts shortcuts).1 = .ok () := by
  rw [enter_ok_iff]
  refine ⟨fun h => h id rfl rfl hfree, fun h id' hid _ _ => ?_⟩
  cases hid
  exact h

/-- A registration keeps the registry consistent if its chords are new. -/
theorem register_consistent {s : Registry} {value : CommandValue} (hs : s.Consistent browser)
    (hseparate : Separate browser s (.register value)) :
    (s.register browser value).2.Consistent browser := by
  obtain ⟨_ | id, run, shortcuts⟩ := value
  · exact hs
  cases run with
  | false => exact hs
  | true =>
      cases htaken : s.commands.lookup id with
      | some other =>
          simp only [Registry.register, htaken]
          exact hs
      | none =>
          have hok := (separate_iff htaken).mp hseparate
          have hentered := enter_lookup hok
          simp only [Registry.register, htaken, hok]
          intro chord other
          dsimp only
          rw [hentered, hs chord other]
          by_cases hother : other = id
          · subst hother
            simp [htaken, AList.lookup_insert]
          · simp [AList.lookup_insert_ne hother, hother]

/-- Unregistering keeps the registry consistent. -/
theorem unregister_consistent {s : Registry} (hs : s.Consistent browser) (id : JsString) :
    (s.unregister id).Consistent browser := by
  unfold Registry.unregister
  cases hfound : s.commands.lookup id with
  | none => exact hs
  | some command =>
      intro chord other
      dsimp only
      rw [lookup_keep, hs chord other]
      by_cases hother : other = id
      · subst hother
        simp [AList.lookup_erase]
      · simp [AList.lookup_erase_ne hother, hother]

/-- Unregistering leaves the registrations under other identifiers alone. -/
theorem unregister_undisturbed {s : Registry} {id other : JsString} (hother : other ≠ id) :
    Undisturbed s (s.unregister id) other := by
  unfold Registry.unregister
  cases hfound : s.commands.lookup id with
  | none => exact ⟨rfl, fun _ => Iff.rfl⟩
  | some command =>
      refine ⟨AList.lookup_erase_ne hother, fun chord => ?_⟩
      dsimp only
      rw [lookup_keep, bne_iff_ne]
      exact and_iff_left hother

/-- A registration that is found is gone after it has been unregistered. -/
theorem unregister_lookup {s : Registry} {id : JsString} {command : Command}
    (h : s.commands.lookup id = some command) : (s.unregister id).commands.lookup id = none := by
  simp only [Registry.unregister, h]
  exact AList.lookup_erase id s.commands

/-- A registration that throws keeps everything exactly if its chords are new. -/
theorem register_kept_iff {s : Registry} {value : CommandValue} :
    Kept browser s (.register value) ↔ Separate browser s (.register value) := by
  obtain ⟨_ | id, run, shortcuts⟩ := value
  · refine iff_of_true (fun thrown s' h => ?_) fun id hid => ?_
    · cases h
      exact ⟨rfl, rfl⟩
    · cases hid
  cases run with
  | false =>
      refine iff_of_true (fun thrown s' h => ?_) fun id _ hrun => ?_
      · cases h
        exact ⟨rfl, rfl⟩
      · cases hrun
  | true =>
      cases htaken : s.commands.lookup id with
      | some other =>
          refine iff_of_true (fun thrown s' h => ?_) fun id' hid _ hfree => ?_
          · simp only [Registry.register, htaken, Prod.mk.injEq] at h
            obtain ⟨-, rfl⟩ := h
            exact ⟨rfl, rfl⟩
          · cases hid
            rw [htaken] at hfree
            cases hfree
      | none =>
          rw [separate_iff htaken]
          cases houtcome : (enterShortcuts browser id s.shortcuts shortcuts).1 with
          | ok =>
              refine iff_of_true (fun thrown s' h => ?_) rfl
              simp [Registry.register, htaken, houtcome] at h
          | error thrown =>
              refine iff_of_false (fun hkept => ?_) (by simp)
              have hregister : s.register browser ⟨some id, true, shortcuts⟩ =
                  (.error thrown, (s.register browser ⟨some id, true, shortcuts⟩).2) := by
                simp [Registry.register, htaken, houtcome]
              have hcommands := (hkept thrown _ hregister).1
              simp only [Registry.register, htaken, houtcome] at hcommands
              have hstored := congrArg (AList.lookup id) hcommands
              rw [AList.lookup_insert, htaken] at hstored
              cases hstored

/-- A disposer leaves other registrations alone exactly if it finds its own or none. -/
theorem dispose_kept_iff {s : Registry} {registration : Nat} :
    Kept browser s (.dispose registration) ↔ Separate browser s (.dispose registration) := by
  constructor
  · intro hkept id hdisposer command hfound
    by_contra hother
    have hnext : (registry browser).next s (.dispose registration) = some (s.unregister id) := by
      simp [registry, hdisposer]
    have hundisturbed := (hkept _ hnext id command hfound hother).1
    rw [unregister_lookup hfound, hfound] at hundisturbed
    cases hundisturbed
  · intro hseparate s' hnext id command hfound hother
    obtain ⟨disposed, hdisposer, rfl⟩ := Option.map_eq_some_iff.mp hnext
    refine unregister_undisturbed fun heq => ?_
    subst heq
    exact hother (hseparate id hdisposer command hfound)

theorem kept_iff {s : Registry} {call : Call} : Kept browser s call ↔ Separate browser s call := by
  cases call with
  | register value => exact register_kept_iff
  | unregister id => exact Iff.rfl
  | dispose registration => exact dispose_kept_iff

/-- A call keeps the registry consistent if its chords are new. -/
theorem next_consistent {s s' : Registry} {call : Call} (hs : s.Consistent browser)
    (hseparate : Separate browser s call) (h : (registry browser).next s call = some s') :
    s'.Consistent browser := by
  cases call with
  | register value =>
      obtain rfl := Option.some.inj h
      exact register_consistent hs hseparate
  | unregister id =>
      obtain rfl := Option.some.inj h
      exact unregister_consistent hs id
  | dispose registration =>
      obtain ⟨id, -, rfl⟩ := Option.map_eq_some_iff.mp h
      exact unregister_consistent hs id

/-- In a run, calls that throw change nothing, disposers own only their registration and the table
stays consistent exactly if all chords are new and every disposer finds its own registration or
none. -/
theorem registry_sound_iff (browser : Browser) (calls : List Call) :
    ((registry browser).Always (Registry.Consistent browser) {} calls ∧
        (registry browser).Throughout (Kept browser) {} calls) ↔
      (registry browser).Throughout (Separate browser) {} calls := by
  constructor
  · intro ⟨_, hkept⟩
    exact hkept.mono fun _ _ => kept_iff.mp
  · intro hseparate
    refine ⟨hseparate.always (fun chord id => ?_) fun _ _ _ => next_consistent,
      hseparate.mono fun _ _ => kept_iff.mpr⟩
    simp [AList.lookup_empty]

/-! ## Two runs that it does not survive -/

/-- A browser that is not on a Mac, for ASCII texts. -/
def plainBrowser : Browser where
  toLowerCase value := value.map fun unit =>
    if 65 ≤ unit.toNat ∧ unit.toNat ≤ 90 then unit + 32 else unit
  mac := false

/-- A command that saves. -/
def save : CommandValue := ⟨some (ascii "save"), true, [.text (ascii "CommandOrControl+S")]⟩

/-- A command that reloads, with an alias of that chord. -/
def reload : CommandValue :=
  ⟨some (ascii "reload"), true, [.text (ascii "F5"), .text (ascii "s + Control")]⟩

example : normalize plainBrowser (ascii "s + Control") = ascii "control+s" := by decide +kernel

/-- The registry after the first command. -/
def saved : Registry := (Registry.register plainBrowser {} save).2

/-- The registration of the second command throws and leaves the command and one chord behind; the
first disposer of a command removes a later registration. -/
theorem refused_command_stays :
    ((registry plainBrowser).play {} [.register save, .register reload]).map
        (fun s => s.shortcuts.lookup (ascii "f5")) = some (some (ascii "reload")) ∧
      ¬ (registry plainBrowser).Throughout (Kept plainBrowser) {}
        [.register save, .register reload] ∧
      ¬ (registry plainBrowser).Throughout (Kept plainBrowser) {}
        [.register save, .unregister (ascii "save"), .register save, .dispose 0] := by
  refine ⟨by decide +kernel, fun ⟨_, hkept⟩ => ?_, fun ⟨_, hkept⟩ => ?_⟩
  · have hsecond := kept_iff.mp (hkept saved rfl).1
    have hfree : saved.commands.lookup (ascii "reload") = none := by decide +kernel
    have hentered := (separate_iff hfree).mp hsecond
    exact absurd hentered (by decide +kernel)
  · have hthird := (hkept saved rfl).2 (saved.unregister (ascii "save")) rfl
    have hfourth := hthird.2 ((saved.unregister (ascii "save")).register plainBrowser save).2 rfl
    have hown := kept_iff.mp hfourth.1 (ascii "save") (by decide +kernel)
      ⟨ascii "save", 1, save.shortcuts⟩ (by decide +kernel)
    cases hown

end PamDesktop.Workstation
