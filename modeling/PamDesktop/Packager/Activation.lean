import PamDesktop.Foundations.DesktopEntry
import PamDesktop.Foundations.Lines
import PamDesktop.Protocol.Accepted

/-!
# Activations of a packaged application

A quick action and a URI come to the application through four texts: the template of the desktop
entry, the entry that the portable installer makes of it, the arguments that the desktop and then
the launcher script pass on, and the arguments that the host splits. `activations_arrive_iff` says
what comes through all of them.
-/

namespace PamDesktop.Packager.Activation

open Foundations Protocol

/-! ## The desktop entry -/

/-- `desktop_value`. -/
def desktopValue (value : String) : List Char :=
  value.toList.flatMap fun c => if c = '\\' ∨ c = ';' then ['\\', c] else [c]

/-- `freedesktop_category`. -/
def freedesktopCategory : ApplicationCategory → String
  | .development => "Development"
  | .productivity => "Office"
  | .graphics => "Graphics"
  | .audioVideo => "AudioVideo"
  | .network => "Network"
  | .utility => "Utility"
  | .game => "Game"
  | .education => "Education"

/-- The types that the application opens. -/
def mimeTypes (lifecycle : LifecycleConfig) : List (List Char) :=
  lifecycle.mimeTypes.map String.toList ++
    lifecycle.urlSchemes.map fun scheme => "x-scheme-handler/".toList ++ scheme.toList

/-- `desktop_entry`. -/
def desktopEntry (manifest : ApplicationManifest) (quickActions : List QuickActionConfig)
    (executable : List Char) : List Char :=
  let mimeLine :=
    if mimeTypes manifest.lifecycle = [] then []
    else "MimeType=".toList ++ [';'].intercalate (mimeTypes manifest.lifecycle) ++ ";\n".toList
  let actionsLine :=
    if quickActions = [] then []
    else "Actions=".toList ++ [';'].intercalate (quickActions.map (·.id.toList)) ++ ";\n".toList
  let actionSections := quickActions.flatMap fun action =>
    "\n[Desktop Action ".toList ++ action.id.toList ++ "]\nName=".toList ++
      desktopValue action.label ++ "\nExec=".toList ++ executable ++
      " --pam-quick-action=".toList ++ action.id.toList ++ "\n".toList
  "[Desktop Entry]\nType=Application\nVersion=1.5\nName=".toList ++ desktopValue manifest.name ++
    "\nComment=".toList ++ desktopValue manifest.description ++ "\nExec=".toList ++ executable ++
    " %U\nIcon=".toList ++ manifest.identifier.toList ++ "\nTerminal=false\nCategories=".toList ++
    (freedesktopCategory manifest.category).toList ++ ";\n".toList ++ mimeLine ++ actionsLine ++
    "StartupWMClass=".toList ++ manifest.identifier.toList ++ "\n".toList ++ actionSections

/-! ## The portable installer -/

/-- The variables that `PORTABLE_INSTALLER` reads; an empty `XDG_DATA_HOME` counts as unset. -/
structure Environment where
  home : List Char
  xdgDataHome : List Char

/-- `DATA_HOME`. -/
def Environment.dataHome (environment : Environment) : List Char :=
  if environment.xdgDataHome = [] then environment.home ++ "/.local/share".toList
  else environment.xdgDataHome

/-- `executable_name`; there is always a last piece. -/
def executableName (manifest : ApplicationManifest) : List Char :=
  (manifest.identifier.toList.splitOn '.').getLast?.getD []

/-- `$TARGET/bin/@EXECUTABLE@`. -/
def launcherPath (environment : Environment) (manifest : ApplicationManifest) : List Char :=
  environment.dataHome ++ "/pam-desktop/apps/".toList ++ manifest.identifier.toList ++
    "/bin/".toList ++ executableName manifest

/-- A turn of the loop of `PORTABLE_INSTALLER`. -/
def installLine (launcher line : List Char) : List Char :=
  if line = "Exec=@PAM_EXEC@ %U".toList then "Exec=".toList ++ launcher ++ " %U".toList else line

/-- The loop of `PORTABLE_INSTALLER`, which reads the lines that have an end. -/
def installEntry (launcher template : List Char) : List Char :=
  joinLines '\n' ((template.splitOn '\n').dropLast.map (installLine launcher))

/-- The lines of the entry that is installed. -/
def installed (environment : Environment) (manifest : ApplicationManifest)
    (quickActions : List QuickActionConfig) : List (List Char) :=
  (installEntry (launcherPath environment manifest)
    (desktopEntry manifest quickActions "@PAM_EXEC@".toList)).splitOn '\n'

/-! ## The launcher and the host -/

/-- `dirname` of a path that has a directory. -/
def dirname (path : List Char) : List Char :=
  (path.rdropWhile (· ≠ '/')).rdropWhile (· = '/')

/-- The script of `write_launcher`, which is no link itself: the command of the host. -/
def launch (launcher : List Char) : List (List Char) → List (List Char) := fun _ =>
  -- the script does not mention its own arguments
  let bundle := dirname (dirname launcher)
  [bundle ++ "/bin/pam-desktop".toList, "run".toList, bundle ++ "/app".toList]

/-- The arguments that `run` hands to `run_desktop`. -/
def hostArguments : List (List Char) → Option (List (List Char))
  | _ :: command :: rest => if command = "run".toList then some (rest.drop 1) else none
  | _ => none

/-- `split_activation`. -/
def splitActivation (allowedQuickActions : List (List Char)) :
    List (List Char) → List (List Char) × List (List Char)
  | [] => ([], [])
  | argument :: rest =>
      let (quickActions, remaining) := splitActivation allowedQuickActions rest
      match argument.dropPrefix? "--pam-quick-action=".toList with
      | some id =>
          if allowedQuickActions.contains id then (id :: quickActions, remaining)
          else (quickActions, remaining)
      | none => (quickActions, argument :: remaining)

/-- `%U` is the list of URIs. -/
def fieldCodes (uris : List (List Char)) (code : Char) : Option (List (List Char)) :=
  if code = 'U' then some uris else none

/-- The quick actions and the other arguments that the host has when a desktop starts a group of
the installed entry. -/
def activation (environment : Environment) (manifest : ApplicationManifest)
    (quickActions : List QuickActionConfig) (group : List Char) (uris : List (List Char)) :
    Option (List (List Char) × List (List Char)) :=
  match DesktopEntry.started (fieldCodes uris) group
      (installed environment manifest quickActions) with
  | some (program :: arguments) =>
      if program = launcherPath environment manifest then
        (hostArguments (launch program arguments)).map
          (splitActivation (quickActions.map (·.id.toList)))
      else none
  | _ => none

/-- Activations arrive: the URIs of a start of the application, each quick action, and there is no
`Exec` line with the placeholder. -/
structure Arrives (environment : Environment) (manifest : ApplicationManifest)
    (quickActions : List QuickActionConfig) (uris : List (List Char)) : Prop where
  opened : activation environment manifest quickActions "Desktop Entry".toList uris =
    some ([], uris)
  selected : ∀ action ∈ quickActions, activation environment manifest quickActions
    ("Desktop Action ".toList ++ action.id.toList) [] = some ([action.id.toList], [])
  substituted : ∀ line ∈ installed environment manifest quickActions,
    ¬ "Exec=@PAM_EXEC@".toList <+: line

/-! ## The lines of the entry -/

/-- The lines of the groups of the quick actions. -/
def actionLines (executable : List Char) (action : QuickActionConfig) : List (List Char) :=
  [[], "[Desktop Action ".toList ++ action.id.toList ++ "]".toList,
    "Name=".toList ++ desktopValue action.label,
    "Exec=".toList ++ executable ++ " --pam-quick-action=".toList ++ action.id.toList]

/-- The keys before `Exec`. -/
def keysBefore (manifest : ApplicationManifest) : List (List Char × List Char) :=
  [("Type".toList, "Application".toList), ("Version".toList, "1.5".toList),
    ("Name".toList, desktopValue manifest.name),
    ("Comment".toList, desktopValue manifest.description)]

/-- The lines after the first `Exec`, up to the quick actions. -/
def linesAfter (manifest : ApplicationManifest) (quickActions : List QuickActionConfig) :
    List (List Char) :=
  ["Icon=".toList ++ manifest.identifier.toList, "Terminal=false".toList,
    "Categories=".toList ++ (freedesktopCategory manifest.category).toList ++ ";".toList] ++
    (if mimeTypes manifest.lifecycle = [] then []
      else ["MimeType=".toList ++ [';'].intercalate (mimeTypes manifest.lifecycle) ++
        ";".toList]) ++
    (if quickActions = [] then []
      else ["Actions=".toList ++ [';'].intercalate (quickActions.map (·.id.toList)) ++
        ";".toList]) ++
    ["StartupWMClass=".toList ++ manifest.identifier.toList]

theorem desktop_entry_lines (manifest : ApplicationManifest)
    (quickActions : List QuickActionConfig) (executable : List Char) :
    desktopEntry manifest quickActions executable = joinLines '\n'
      ("[Desktop Entry]".toList ::
        ((keysBefore manifest).map fun pair => pair.1 ++ '=' :: pair.2) ++
        ("Exec=".toList ++ executable ++ " %U".toList) ::
          (linesAfter manifest quickActions ++ quickActions.flatMap (actionLines executable))) := by
  have hactions : (quickActions.flatMap fun action =>
      "\n[Desktop Action ".toList ++ action.id.toList ++ "]\nName=".toList ++
        desktopValue action.label ++ "\nExec=".toList ++ executable ++
        " --pam-quick-action=".toList ++ action.id.toList ++ "\n".toList) =
      joinLines '\n' (quickActions.flatMap (actionLines executable)) := by
    induction quickActions with
    | nil => rfl
    | cons action rest ih =>
        rw [List.flatMap_cons, ih]
        simp [joinLines, actionLines]
  unfold desktopEntry
  dsimp only
  rw [hactions]
  by_cases hmime : mimeTypes manifest.lifecycle = []
  · by_cases hquick : quickActions = []
    · simp [joinLines, keysBefore, linesAfter, hmime, hquick]
    · simp [joinLines, keysBefore, linesAfter, hmime, hquick]
  · by_cases hquick : quickActions = []
    · simp [joinLines, keysBefore, linesAfter, hmime, hquick]
    · simp [joinLines, keysBefore, linesAfter, hmime, hquick]

/-! ## What the checks of the protocol leave -/

section Unbroken

theorem desktop_value_unbroken {value : String} (h : '\n' ∉ value.toList) :
    '\n' ∉ desktopValue value := by
  intro hmem
  obtain ⟨c, hc, hmem⟩ := List.mem_flatMap.mp hmem
  split at hmem
  · rename_i hescaped
    obtain hmem | hmem := List.mem_cons.mp hmem
    · cases hmem
    · rw [List.mem_singleton.mp hmem] at h
      exact h hc
  · rw [List.mem_singleton.mp hmem] at h
    exact h hc

theorem intercalate_unbroken {pieces : List (List Char)} (h : ∀ piece ∈ pieces, '\n' ∉ piece) :
    '\n' ∉ [';'].intercalate pieces := by
  intro hmem
  obtain hmem | ⟨piece, hpiece, hmem⟩ := mem_intercalate hmem
  · cases hmem
  · exact h piece hpiece hmem

variable {manifest : ApplicationManifest} {quickActions : List QuickActionConfig}

theorem identifier_unbroken (hmanifest : manifest.Accepted) :
    '\n' ∉ manifest.identifier.toList :=
  fun hmem => absurd (hmanifest.identifier _ hmem) (by decide)

theorem action_unbroken {action : QuickActionConfig} (h : action.Accepted) :
    '\n' ∉ action.id.toList :=
  fun hmem => absurd (h.id _ hmem) (by decide)

theorem mime_types_unbroken (hmanifest : manifest.Accepted) :
    ∀ piece ∈ mimeTypes manifest.lifecycle, '\n' ∉ piece := by
  intro piece hpiece
  obtain hpiece | hpiece := List.mem_append.mp hpiece
  · obtain ⟨mime, hmime, rfl⟩ := List.mem_map.mp hpiece
    exact hmanifest.mimeTypes mime hmime
  · obtain ⟨scheme, hscheme, rfl⟩ := List.mem_map.mp hpiece
    have hunbroken := hmanifest.urlSchemes scheme hscheme
    simpa using hunbroken

theorem keys_before_unbroken (hmanifest : manifest.Accepted) :
    ∀ line ∈ (keysBefore manifest).map fun pair => pair.1 ++ '=' :: pair.2, '\n' ∉ line := by
  have hname := desktop_value_unbroken hmanifest.name
  have hdescription := desktop_value_unbroken hmanifest.description
  simp [keysBefore, hname, hdescription]

theorem category_unbroken (category : ApplicationCategory) :
    '\n' ∉ (freedesktopCategory category).toList := by
  cases category <;> decide

theorem lines_after_unbroken (hmanifest : manifest.Accepted)
    (hactions : ∀ action ∈ quickActions, action.Accepted) :
    ∀ line ∈ linesAfter manifest quickActions, '\n' ∉ line := by
  have hidentifier := identifier_unbroken hmanifest
  have hcategory := category_unbroken manifest.category
  have htypes := intercalate_unbroken (mime_types_unbroken hmanifest)
  have hids : '\n' ∉ [';'].intercalate (quickActions.map (·.id.toList)) := by
    refine intercalate_unbroken fun piece hpiece => ?_
    obtain ⟨action, haction, rfl⟩ := List.mem_map.mp hpiece
    exact action_unbroken (hactions action haction)
  intro line hline
  unfold linesAfter at hline
  obtain hline | hline := List.mem_append.mp hline
  · obtain hline | hline := List.mem_append.mp hline
    · obtain hline | hline := List.mem_append.mp hline
      · simp only [List.mem_cons, List.not_mem_nil, or_false] at hline
        obtain rfl | rfl | rfl := hline
        · simpa using hidentifier
        · decide
        · simpa using hcategory
      · split at hline
        · cases hline
        · rw [List.mem_singleton.mp hline]
          simpa using htypes
    · split at hline
      · cases hline
      · rw [List.mem_singleton.mp hline]
        simpa using hids
  · rw [List.mem_singleton.mp hline]
    simpa using hidentifier

theorem action_lines_unbroken {action : QuickActionConfig} (h : action.Accepted) :
    ∀ line ∈ actionLines "@PAM_EXEC@".toList action, '\n' ∉ line := by
  have hid := action_unbroken h
  have hlabel := desktop_value_unbroken h.label
  simp [actionLines, hid, hlabel]

/-- The lines of the template. -/
def templateLines (manifest : ApplicationManifest) (quickActions : List QuickActionConfig) :
    List (List Char) :=
  "[Desktop Entry]".toList :: ((keysBefore manifest).map fun pair => pair.1 ++ '=' :: pair.2) ++
    ("Exec=".toList ++ "@PAM_EXEC@".toList ++ " %U".toList) ::
      (linesAfter manifest quickActions ++
        quickActions.flatMap (actionLines "@PAM_EXEC@".toList))

/-- No line of the template has a line break. -/
theorem template_unbroken (hmanifest : manifest.Accepted)
    (hactions : ∀ action ∈ quickActions, action.Accepted) :
    ∀ line ∈ templateLines manifest quickActions, '\n' ∉ line := by
  intro line hline
  obtain hline | hline := List.mem_append.mp hline
  · obtain rfl | hline := List.mem_cons.mp hline
    · decide
    · exact keys_before_unbroken hmanifest line hline
  · obtain rfl | hline := List.mem_cons.mp hline
    · decide
    · obtain hline | hline := List.mem_append.mp hline
      · exact lines_after_unbroken hmanifest hactions line hline
      · obtain ⟨action, haction, hline⟩ := List.mem_flatMap.mp hline
        exact action_lines_unbroken (hactions action haction) line hline

/-- What the installer makes of the template, line by line. -/
theorem installed_lines (environment : Environment) (hmanifest : manifest.Accepted)
    (hactions : ∀ action ∈ quickActions, action.Accepted) :
    installed environment manifest quickActions =
      ((templateLines manifest quickActions).map
        (installLine (launcherPath environment manifest))).flatMap (·.splitOn '\n') ++ [[]] := by
  unfold installed installEntry
  rw [desktop_entry_lines]
  show (joinLines '\n' (((joinLines '\n' (templateLines manifest quickActions)).splitOn
    '\n').dropLast.map (installLine (launcherPath environment manifest)))).splitOn '\n' = _
  rw [split_join_whole (template_unbroken hmanifest hactions), List.dropLast_concat,
    split_join_lines]

/-- A line that is not the placeholder stays as it is. -/
theorem installed_line (environment : Environment) (hmanifest : manifest.Accepted)
    (hactions : ∀ action ∈ quickActions, action.Accepted) {line : List Char}
    (hline : line ∈ templateLines manifest quickActions)
    (hne : line ≠ "Exec=@PAM_EXEC@ %U".toList) :
    line ∈ installed environment manifest quickActions := by
  rw [installed_lines environment hmanifest hactions]
  refine List.mem_append_left _ (List.mem_flatMap.mpr ⟨line, ?_, ?_⟩)
  · exact List.mem_map.mpr ⟨line, hline, if_neg hne⟩
  · rw [List.splitOn_eq_singleton (template_unbroken hmanifest hactions line hline)]
    exact List.mem_singleton_self line

theorem kept_lines {launcher : List Char} {lines : List (List Char)}
    (hunbroken : ∀ line ∈ lines, '\n' ∉ line)
    (hne : ∀ line ∈ lines, line ≠ "Exec=@PAM_EXEC@ %U".toList) :
    (lines.map (installLine launcher)).flatMap (·.splitOn '\n') = lines := by
  induction lines with
  | nil => rfl
  | cons line rest ih =>
      have hkept : installLine launcher line = line := if_neg (hne line List.mem_cons_self)
      rw [List.map_cons, List.flatMap_cons, hkept,
        List.splitOn_eq_singleton (hunbroken line List.mem_cons_self),
        ih (fun other hother => hunbroken other (List.mem_cons_of_mem _ hother))
          fun other hother => hne other (List.mem_cons_of_mem _ hother)]
      rfl

/-- The program of the entry is on the first line of what replaces the placeholder. -/
theorem installed_exec (environment : Environment) (hmanifest : manifest.Accepted)
    (hactions : ∀ action ∈ quickActions, action.Accepted) :
    ∃ rest, installed environment manifest quickActions =
      ('[' :: ("Desktop Entry".toList ++ [']'])) ::
        ((keysBefore manifest).map fun pair => pair.1 ++ '=' :: pair.2) ++
        ("Exec".toList ++ '=' :: (launcherPath environment manifest ++ " %U".toList).takeWhile
          (· ≠ '\n')) :: rest := by
  have hfirst : ∀ line ∈ "[Desktop Entry]".toList ::
      ((keysBefore manifest).map fun pair => pair.1 ++ '=' :: pair.2),
      '\n' ∉ line ∧ line ≠ "Exec=@PAM_EXEC@ %U".toList := by
    intro line hline
    refine ⟨template_unbroken hmanifest hactions line (List.mem_append_left _ hline), ?_⟩
    obtain rfl | hline := List.mem_cons.mp hline
    · decide
    · simp only [keysBefore, List.map_cons, List.map_nil, List.mem_cons, List.not_mem_nil,
        or_false] at hline
      obtain rfl | rfl | rfl | rfl := hline
      · decide
      · decide
      · simp
      · simp
  obtain ⟨more, hmore⟩ := split_head '\n'
    ("Exec=".toList ++ launcherPath environment manifest ++ " %U".toList)
  have hexec : installLine (launcherPath environment manifest)
      ("Exec=".toList ++ "@PAM_EXEC@".toList ++ " %U".toList) =
      "Exec=".toList ++ launcherPath environment manifest ++ " %U".toList := if_pos rfl
  rw [installed_lines environment hmanifest hactions, templateLines, List.map_append,
    List.flatMap_append, kept_lines (fun line hline => (hfirst line hline).1)
      fun line hline => (hfirst line hline).2, List.map_cons, List.flatMap_cons, hexec, hmore]
  have hhead : ("Exec=".toList ++ launcherPath environment manifest ++ " %U".toList).takeWhile
      (· ≠ '\n') = "Exec".toList ++ '=' ::
        (launcherPath environment manifest ++ " %U".toList).takeWhile (· ≠ '\n') := by
    rw [List.append_assoc]
    rfl
  rw [hhead, List.append_assoc, List.cons_append, List.cons_append]
  exact ⟨_, rfl⟩

end Unbroken

/-! ## What is started -/

/-- The launcher passes nothing on. -/
theorem launch_arguments (program : List Char) (arguments : List (List Char)) :
    hostArguments (launch program arguments) = some [] := by
  unfold launch hostArguments
  dsimp only
  rw [if_pos rfl]
  rfl

section Started

variable {environment : Environment} {manifest : ApplicationManifest}
  {quickActions : List QuickActionConfig} {group : List Char} {uris : List (List Char)}

/-- A start that comes to the host has found the launcher and brings nothing. -/
theorem activation_some {result : List (List Char) × List (List Char)}
    (h : activation environment manifest quickActions group uris = some result) :
    result = ([], []) ∧ ∃ arguments, DesktopEntry.started (fieldCodes uris) group
      (installed environment manifest quickActions) =
        some (launcherPath environment manifest :: arguments) := by
  unfold activation at h
  split at h
  · rename_i program arguments hstarted
    split at h
    · rename_i hprogram
      rw [launch_arguments] at h
      exact ⟨(Option.some.inj h).symm, arguments, hprogram ▸ hstarted⟩
    · cases h
  · cases h

theorem activation_launcher {arguments : List (List Char)}
    (h : DesktopEntry.started (fieldCodes uris) group
      (installed environment manifest quickActions) =
        some (launcherPath environment manifest :: arguments)) :
    activation environment manifest quickActions group uris = some ([], []) := by
  unfold activation
  rw [h]
  dsimp only
  rw [if_pos rfl, launch_arguments]
  rfl

/-- The value of the main `Exec` key. -/
theorem started_main (codes : Char → Option (List (List Char))) (hmanifest : manifest.Accepted)
    (hactions : ∀ action ∈ quickActions, action.Accepted) :
    DesktopEntry.started codes "Desktop Entry".toList
        (installed environment manifest quickActions) =
      DesktopEntry.command codes (((launcherPath environment manifest ++ " %U".toList).takeWhile
        (· ≠ '\n')).dropWhile (· = ' ')) := by
  obtain ⟨rest, hlines⟩ := installed_exec environment hmanifest hactions
  unfold DesktopEntry.started
  rw [hlines, DesktopEntry.value_found (by decide), Option.bind_some]
  intro pair hpair
  simp only [keysBefore, List.mem_cons, List.not_mem_nil, or_false] at hpair
  obtain rfl | rfl | rfl | rfl := hpair
  · decide
  · decide
  · show DesktopEntry.isKey "Name".toList = true ∧ "Name".toList ≠ "Exec".toList
    decide
  · show DesktopEntry.isKey "Comment".toList = true ∧ "Comment".toList ≠ "Exec".toList
    decide

theorem data_home_ne_nil (environment : Environment) : environment.dataHome ≠ [] := by
  unfold Environment.dataHome
  split
  · simp
  · rename_i hset
    exact hset

/-- The launcher is below the data directory. -/
theorem launcher_head (environment : Environment) (manifest : ApplicationManifest) :
    (launcherPath environment manifest).head? = environment.dataHome.head? := by
  unfold launcherPath
  cases hhome : environment.dataHome with
  | nil => exact absurd hhome (data_home_ne_nil environment)
  | cons first rest => rfl

/-- An alphabet without special characters is plain. -/
theorem plain_of_alphabet {alphabet : Char → Bool}
    (halphabet : ('%' :: '=' :: " \t\n\"'\\><~|&;$*?#()`".toList).all (!alphabet ·) = true)
    {c : Char} (h : alphabet c = true) : DesktopEntry.plain c = true := by
  cases hplain : DesktopEntry.plain c with
  | true => rfl
  | false =>
      have hmem : c ∈ '%' :: '=' :: " \t\n\"'\\><~|&;$*?#()`".toList := by
        simp only [DesktopEntry.plain, DesktopEntry.reserved, Bool.and_eq_false_iff,
          Bool.not_eq_false', bne_eq_false_iff_eq, List.contains_iff_mem] at hplain
        obtain (hreserved | rfl) | rfl := hplain
        · exact List.mem_cons_of_mem _ (List.mem_cons_of_mem _ hreserved)
        · exact List.mem_cons_self
        · exact List.mem_cons_of_mem _ List.mem_cons_self
      have hforeign := List.all_eq_true.mp halphabet c hmem
      simp [h] at hforeign

theorem reverse_dns_plain {c : Char} (h : isReverseDnsCharacter c = true) :
    DesktopEntry.plain c = true :=
  plain_of_alphabet (by decide) h

/-- The name of the executable is taken from the identifier. -/
theorem executable_name_characters {c : Char} (hc : c ∈ executableName manifest) :
    c ∈ manifest.identifier.toList := by
  unfold executableName at hc
  cases hlast : (manifest.identifier.toList.splitOn '.').getLast? with
  | none =>
      rw [hlast] at hc
      cases hc
  | some piece =>
      rw [hlast] at hc
      exact mem_of_mem_split piece (List.mem_of_getLast? hlast) c hc

/-- The identifier is plain, and so is its last piece. -/
theorem identifier_plain (hmanifest : manifest.Accepted) :
    (∀ c ∈ manifest.identifier.toList, DesktopEntry.plain c = true) ∧
      ∀ c ∈ executableName manifest, DesktopEntry.plain c = true :=
  ⟨fun c hc => reverse_dns_plain (hmanifest.identifier c hc),
    fun c hc => reverse_dns_plain (hmanifest.identifier c (executable_name_characters hc))⟩

/-- Only the data directory decides whether the launcher is a plain program. -/
theorem launcher_plain_iff (hmanifest : manifest.Accepted) :
    (∀ c ∈ launcherPath environment manifest, DesktopEntry.plain c = true) ↔
      ∀ c ∈ environment.dataHome, DesktopEntry.plain c = true := by
  obtain ⟨hidentifier, hexecutable⟩ := identifier_plain hmanifest
  have happs : ∀ c ∈ "/pam-desktop/apps/".toList, DesktopEntry.plain c = true :=
    List.all_eq_true.mp (by decide)
  have hbin : ∀ c ∈ "/bin/".toList, DesktopEntry.plain c = true :=
    List.all_eq_true.mp (by decide)
  constructor
  · intro h c hc
    exact h c (List.mem_append_left _ (List.mem_append_left _ (List.mem_append_left _
      (List.mem_append_left _ hc))))
  · intro h c hc
    obtain hc | hc := List.mem_append.mp hc
    · obtain hc | hc := List.mem_append.mp hc
      · obtain hc | hc := List.mem_append.mp hc
        · obtain hc | hc := List.mem_append.mp hc
          · exact h c hc
          · exact happs c hc
        · exact hidentifier c hc
      · exact hbin c hc
    · exact hexecutable c hc

/-- Only a launcher that is a plain program with a full path is started. -/
theorem plain_of_started {arguments : List (List Char)} (hmanifest : manifest.Accepted)
    (hactions : ∀ action ∈ quickActions, action.Accepted)
    (h : DesktopEntry.started (fieldCodes uris) "Desktop Entry".toList
      (installed environment manifest quickActions) =
        some (launcherPath environment manifest :: arguments)) :
    (launcherPath environment manifest).head? = some '/' ∧
      ∀ c ∈ launcherPath environment manifest, DesktopEntry.plain c = true := by
  rw [started_main _ hmanifest hactions] at h
  have hnames := DesktopEntry.command_names h
  have hslash : (launcherPath environment manifest).contains '/' = true := by
    unfold launcherPath
    simp
  have hhead : (launcherPath environment manifest).head? = some '/' := by
    unfold DesktopEntry.namesProgram at hnames
    rw [hslash] at hnames
    simpa using (Bool.and_eq_true_iff.mp hnames).2
  refine ⟨hhead, ?_⟩
  obtain ⟨path, hpath⟩ : ∃ path, launcherPath environment manifest = '/' :: path := by
    cases hlauncher : launcherPath environment manifest with
    | nil =>
        rw [hlauncher] at hhead
        cases hhead
    | cons first path =>
        rw [hlauncher] at hhead
        exact ⟨path, by rw [Option.some.inj hhead]⟩
  rw [hpath] at h ⊢
  have hvalue : (('/' :: path ++ " %U".toList).takeWhile (· ≠ '\n')).dropWhile (· = ' ') =
      '/' :: (path ++ " %U".toList).takeWhile (· ≠ '\n') := rfl
  rw [hvalue] at h
  have hunreserved := DesktopEntry.command_unreserved h
  have hfield : ∀ c ∈ " %U".toList, decide (c ≠ '\n') = true :=
    List.all_eq_true.mp (by decide)
  have hwhole : (path ++ " %U".toList).takeWhile (· ≠ '\n') = path ++ " %U".toList := by
    rw [List.takeWhile_eq_self_iff]
    intro c hc
    obtain hc | hc := List.mem_append.mp hc
    · refine decide_eq_true fun hbreak => ?_
      have := hunreserved c (List.mem_cons_of_mem _ hc)
      rw [hbreak] at this
      cases this
    · exact hfield c hc
  rw [hwhole] at h
  have hbackslash : '\\' ∉ ['%', 'U'] := by decide
  exact DesktopEntry.command_program_plain rfl h hbackslash

/-- The line of a plain launcher has no line break. -/
theorem exec_unbroken (hplain : ∀ c ∈ launcherPath environment manifest,
    DesktopEntry.plain c = true) :
    '\n' ∉ "Exec=".toList ++ launcherPath environment manifest ++ " %U".toList := by
  intro hmem
  obtain hmem | hmem := List.mem_append.mp hmem
  · obtain hmem | hmem := List.mem_append.mp hmem
    · exact absurd hmem (by decide)
    · exact absurd (hplain _ hmem) (by decide)
  · exact absurd hmem (by decide)

/-- A plain launcher is started with the URIs. -/
theorem started_plain (hmanifest : manifest.Accepted)
    (hactions : ∀ action ∈ quickActions, action.Accepted)
    (hhead : (launcherPath environment manifest).head? = some '/')
    (hplain : ∀ c ∈ launcherPath environment manifest, DesktopEntry.plain c = true) :
    DesktopEntry.started (fieldCodes uris) "Desktop Entry".toList
      (installed environment manifest quickActions) =
        some (launcherPath environment manifest :: uris) := by
  have hunbroken : ∀ c ∈ launcherPath environment manifest ++ " %U".toList,
      decide (c ≠ '\n') = true := by
    intro c hc
    refine decide_eq_true fun hbreak => exec_unbroken hplain ?_
    rw [List.append_assoc]
    exact List.mem_append_right _ (hbreak ▸ hc)
  have hvalue : ((launcherPath environment manifest ++ " %U".toList).takeWhile
      (· ≠ '\n')).dropWhile (· = ' ') = launcherPath environment manifest ++ [' ', '%', 'U'] := by
    rw [List.takeWhile_eq_self_iff.mpr hunbroken]
    cases hlauncher : launcherPath environment manifest with
    | nil =>
        rw [hlauncher] at hhead
        cases hhead
    | cons first path =>
        rw [hlauncher] at hhead
        obtain rfl := Option.some.inj hhead
        rfl
  rw [started_main _ hmanifest hactions, hvalue]
  exact DesktopEntry.command_plain hhead hplain (by decide) rfl

/-- A template without quick actions has the placeholder on one line. -/
theorem placeholder_line {line : List Char} (hline : line ∈ templateLines manifest [])
    (hplaceholder : "Exec=@PAM_EXEC@".toList <+: line) : line = "Exec=@PAM_EXEC@ %U".toList := by
  obtain hline | hline := List.mem_append.mp hline
  · simp only [keysBefore, List.map_cons, List.map_nil, List.mem_cons, List.not_mem_nil,
      or_false] at hline
    obtain rfl | rfl | rfl | rfl | rfl := hline
    all_goals simp at hplaceholder
  · obtain rfl | hline := List.mem_cons.mp hline
    · rfl
    · simp only [linesAfter, if_true, List.flatMap_nil, List.append_nil, List.mem_append,
        List.mem_cons, List.not_mem_nil, or_false] at hline
      obtain ((rfl | rfl | rfl) | hline) | rfl := hline
      · simp at hplaceholder
      · simp at hplaceholder
      · simp at hplaceholder
      · split at hline
        · cases hline
        · rw [List.mem_singleton.mp hline] at hplaceholder
          simp at hplaceholder
      · simp at hplaceholder

end Started

/-- Activations arrive where there is nothing to pass on and the data directory is a full path of
plain characters. -/
theorem activations_arrive_iff {build : Build} (environment : Environment)
    (manifest : ApplicationManifest) (quickActions : List QuickActionConfig)
    (uris : List (List Char)) (hmanifest : manifest.validate build = .ok ())
    (hactions : ∀ action ∈ quickActions, action.validate = .ok ()) :
    Arrives environment manifest quickActions uris ↔
      quickActions = [] ∧ uris = [] ∧ environment.dataHome.head? = some '/' ∧
        ∀ c ∈ environment.dataHome, DesktopEntry.plain c = true := by
  have hmanifest := ApplicationManifest.validate_ok hmanifest
  have hactions : ∀ action ∈ quickActions, action.Accepted :=
    fun action haction => QuickActionConfig.validate_ok (hactions action haction)
  constructor
  · intro h
    have hquick : quickActions = [] := by
      rw [List.eq_nil_iff_forall_not_mem]
      intro action haction
      -- the installer replaces whole lines only
      have hline : "Exec=".toList ++ "@PAM_EXEC@".toList ++ " --pam-quick-action=".toList ++
          action.id.toList ∈ templateLines manifest quickActions := by
        refine List.mem_append_right _ (List.mem_cons_of_mem _ (List.mem_append_right _ ?_))
        refine List.mem_flatMap.mpr ⟨action, haction, ?_⟩
        simp [actionLines]
      have hkept := installed_line environment hmanifest hactions hline (by simp)
      exact h.substituted _ hkept ⟨" --pam-quick-action=".toList ++ action.id.toList, by simp⟩
    obtain ⟨hresult, arguments, hstarted⟩ := activation_some h.opened
    obtain ⟨hhead, hplain⟩ := plain_of_started hmanifest hactions hstarted
    exact ⟨hquick, (Prod.mk.inj hresult).2, launcher_head environment manifest ▸ hhead,
      (launcher_plain_iff hmanifest).mp hplain⟩
  · intro h
    obtain ⟨rfl, rfl, hhead, hplain⟩ := h
    rw [← launcher_head environment manifest] at hhead
    rw [← launcher_plain_iff hmanifest] at hplain
    constructor
    case opened => exact activation_launcher (started_plain hmanifest hactions hhead hplain)
    case selected => nofun
    case substituted =>
      intro line hline hplaceholder
      rw [installed_lines environment hmanifest hactions] at hline
      obtain hline | hline := List.mem_append.mp hline
      · obtain ⟨made, hmade, hline⟩ := List.mem_flatMap.mp hline
        obtain ⟨template, htemplate, rfl⟩ := List.mem_map.mp hmade
        unfold installLine at hline
        split at hline
        · rw [List.splitOn_eq_singleton (exec_unbroken hplain), List.mem_singleton] at hline
          rw [hline] at hplaceholder
          obtain ⟨path, hpath⟩ := List.head?_eq_some_iff.mp hhead
          rw [hpath] at hplaceholder
          simp at hplaceholder
        · rename_i hne
          rw [List.splitOn_eq_singleton (template_unbroken hmanifest hactions _ htemplate),
            List.mem_singleton] at hline
          subst hline
          exact hne (placeholder_line htemplate hplaceholder)
      · rw [List.mem_singleton.mp hline] at hplaceholder
        simp at hplaceholder

/-! ## The notes application -/

/-- An application that opens links and has a quick action. -/
def notes : ApplicationManifest where
  identifier := "com.example.notes"
  name := "Notes"
  version := "1.0.0"
  description := "Notes; and more"
  publisher := "Example"
  category := .productivity
  icon := "icon.png"
  lifecycle := { urlSchemes := ["notes"] }

/-- The quick action `compose`. -/
def compose : QuickActionConfig where
  id := "compose"
  label := "New note"

/-- Any build accepts the manifest. -/
def anyBuild : Build := ⟨.linux, "x86_64", false, fun _ => none⟩

/-- A home directory without special characters. -/
def plainHome : Environment := ⟨"/home/ada".toList, []⟩

/-- Without quick actions and URIs the application is started. -/
theorem plain_start_arrives : Arrives plainHome notes [] [] := by
  have hvalid : notes.validate anyBuild = .ok () := by decide +kernel
  exact (activations_arrive_iff plainHome notes [] [] hvalid nofun).mpr
    ⟨rfl, rfl, by decide, List.all_eq_true.mp (by decide)⟩

/-- The link and the quick action do not arrive, and the placeholder stays. -/
theorem activations_lost : notes.validate anyBuild = .ok () ∧ compose.validate = .ok () ∧
    activation plainHome notes [compose] "Desktop Entry".toList ["notes://open".toList] =
      some ([], []) ∧
    activation plainHome notes [compose] "Desktop Action compose".toList [] = none ∧
    "Exec=@PAM_EXEC@ --pam-quick-action=compose".toList ∈ installed plainHome notes [compose] ∧
    ¬ Arrives plainHome notes [compose] ["notes://open".toList] := by
  have hopened : activation plainHome notes [compose] "Desktop Entry".toList
      ["notes://open".toList] = some ([], []) := by
    decide +kernel
  refine ⟨by decide +kernel, by decide +kernel, hopened, by decide +kernel, by decide +kernel,
    fun h => ?_⟩
  have hlost := h.opened
  rw [hopened] at hlost
  exact absurd hlost (by decide)

end PamDesktop.Packager.Activation
