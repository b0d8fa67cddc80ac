import Mathlib.Data.List.Nodup
import PamDesktop.Foundations.KeyFile
import PamDesktop.Packager.Activation

/-!
# What desktops read in an entry

The groups, the keys and the values that an entry of `desktop_entry` is meant to have. Groups and
keys are always read back (`keys_read_back`); `entry_reads_back_iff` says for which texts the
values are.
-/

namespace PamDesktop.Packager.Activation

open Foundations Protocol

/-- The programs that `desktop_entry` is called with: the placeholder of the portable bundle, the
launcher of the Debian and RPM packages and that of the AppImage. -/
def executables (manifest : ApplicationManifest) : List (List Char) :=
  ["@PAM_EXEC@".toList,
    "/opt/".toList ++ manifest.identifier.toList ++ "/bin/".toList ++ executableName manifest,
    executableName manifest]

/-- The group of the application, for a start with some URIs. -/
def applicationGroup (manifest : ApplicationManifest) (quickActions : List QuickActionConfig)
    (executable : List Char) (uris : List (List Char)) : DesktopEntry.Group DesktopEntry.Value :=
  ⟨"Desktop Entry".toList,
    [("Type".toList, .text "Application".toList), ("Version".toList, .text "1.5".toList),
      ("Name".toList, .text manifest.name.toList),
      ("Comment".toList, .text manifest.description.toList),
      ("Exec".toList, .command (executable :: uris)),
      ("Icon".toList, .text manifest.identifier.toList), ("Terminal".toList, .flag false),
      ("Categories".toList, .texts [(freedesktopCategory manifest.category).toList])] ++
    (if mimeTypes manifest.lifecycle = [] then []
      else [("MimeType".toList, .texts (mimeTypes manifest.lifecycle))]) ++
    (if quickActions = [] then []
      else [("Actions".toList, .texts (quickActions.map (·.id.toList)))]) ++
    [("StartupWMClass".toList, .text manifest.identifier.toList)]⟩

/-- The group of a quick action. -/
def actionGroup (executable : List Char) (action : QuickActionConfig) :
    DesktopEntry.Group DesktopEntry.Value :=
  ⟨"Desktop Action ".toList ++ action.id.toList,
    [("Name".toList, .text action.label.toList),
      ("Exec".toList, .command [executable, "--pam-quick-action=".toList ++ action.id.toList])]⟩

/-- What an entry is meant to say. -/
def intended (manifest : ApplicationManifest) (quickActions : List QuickActionConfig)
    (executable : List Char) (uris : List (List Char)) :
    List (DesktopEntry.Group DesktopEntry.Value) :=
  applicationGroup manifest quickActions executable uris ::
    quickActions.map (actionGroup executable)

/-- Every entry of an application says what it is meant to say. -/
def ReadsBack (manifest : ApplicationManifest) (quickActions : List QuickActionConfig) : Prop :=
  ∀ executable ∈ executables manifest, ∀ uris,
    DesktopEntry.read (fieldCodes uris) (desktopEntry manifest quickActions executable) =
      some (intended manifest quickActions executable uris)

/-! ## Escapes -/

/-- `desktop_value` on characters. -/
def escapeValue (value : List Char) : List Char :=
  value.flatMap fun c => if c = '\\' ∨ c = ';' then ['\\', c] else [c]

theorem escape_value_cons_plain {c : Char} (h : ¬ (c = '\\' ∨ c = ';')) (value : List Char) :
    escapeValue (c :: value) = c :: escapeValue value := by
  rw [escapeValue, List.flatMap_cons, if_neg h]
  rfl

theorem escape_value_cons_escaped {c : Char} (h : c = '\\' ∨ c = ';') (value : List Char) :
    escapeValue (c :: value) = '\\' :: c :: escapeValue value := by
  rw [escapeValue, List.flatMap_cons, if_pos h]
  rfl

/-- A character that is not escaped is read by itself. -/
theorem unescape_cons {c : Char} (hc : c ≠ '\\') (rest : List Char) :
    DesktopEntry.unescape (c :: rest) = (DesktopEntry.unescape rest).map (c :: ·) := by
  cases rest with
  | nil => exact if_neg hc
  | cons next rest => rw [DesktopEntry.unescape, if_neg hc]

/-- Escaped texts are read back exactly if they have no semicolon; else they are not read. -/
theorem unescape_escape_value (value : List Char) :
    DesktopEntry.unescape (escapeValue value) = if ';' ∈ value then none else some value := by
  induction value with
  | nil => rfl
  | cons c value ih =>
      by_cases hspecial : c = '\\' ∨ c = ';'
      · rw [escape_value_cons_escaped hspecial, DesktopEntry.unescape, if_pos rfl]
        obtain rfl | rfl := hspecial
        · rw [ih]
          by_cases hmem : ';' ∈ value
          · rw [if_pos hmem, if_pos (List.mem_cons_of_mem _ hmem)]
            rfl
          · rw [if_neg hmem, if_neg (by simpa using hmem)]
            rfl
        · rw [if_pos List.mem_cons_self]
          rfl
      · rw [escape_value_cons_plain hspecial]
        rw [not_or] at hspecial
        rw [unescape_cons hspecial.1, ih]
        by_cases hmem : ';' ∈ value
        · rw [if_pos hmem, if_pos (List.mem_cons_of_mem _ hmem)]
          rfl
        · have hcons : ';' ∉ c :: value := by
            intro h
            obtain h | h := List.mem_cons.mp h
            · exact hspecial.2 h.symm
            · exact hmem h
          rw [if_neg hmem, if_neg hcons]
          rfl

theorem escape_value_trimmed (value : List Char) :
    (escapeValue value).dropWhile (· = ' ') = escapeValue (value.dropWhile (· = ' ')) := by
  induction value with
  | nil => rfl
  | cons c value ih =>
      by_cases hblank : c = ' '
      · subst hblank
        rw [escape_value_cons_plain (by decide), List.dropWhile_cons_of_pos (by decide),
          List.dropWhile_cons_of_pos (by decide), ih]
      · rw [List.dropWhile_cons_of_neg (by simpa using hblank)]
        by_cases hspecial : c = '\\' ∨ c = ';'
        · rw [escape_value_cons_escaped hspecial, List.dropWhile_cons_of_neg (by decide)]
        · rw [escape_value_cons_plain hspecial, List.dropWhile_cons_of_neg (by simpa using hblank)]

/-- A text that `desktop_value` does not change for a reader. -/
def Readable (text : String) : Prop := ';' ∉ text.toList ∧ text.toList.head? ≠ some ' '

instance (text : String) : Decidable (Readable text) := inferInstanceAs (Decidable (_ ∧ _))

theorem value_read_iff (text : String) :
    DesktopEntry.unescape ((desktopValue text).dropWhile (· = ' ')) = some text.toList ↔
      Readable text := by
  show DesktopEntry.unescape ((escapeValue text.toList).dropWhile (· = ' ')) = _ ↔ _
  rw [escape_value_trimmed, unescape_escape_value, Readable]
  have htrimmed : text.toList.dropWhile (· = ' ') = text.toList ↔
      text.toList.head? ≠ some ' ' := by
    cases text.toList with
    | nil => simp
    | cons c rest =>
        rw [List.dropWhile_eq_self_iff]
        simp
  by_cases hblank : text.toList.head? = some ' '
  · refine iff_of_false ?_ fun h => h.2 hblank
    intro h
    split at h
    · cases h
    · exact htrimmed.mp (Option.some.inj h) hblank
  · rw [htrimmed.mpr hblank]
    by_cases hmem : ';' ∈ text.toList
    · rw [if_pos hmem]
      exact iff_of_false nofun fun h => h.1 hmem
    · rw [if_neg hmem]
      exact iff_of_true rfl ⟨hmem, hblank⟩

/-! ## What is written -/

section Written

variable {manifest : ApplicationManifest} {quickActions : List QuickActionConfig}
  {executable : List Char} {uris : List (List Char)}

/-- The group of the application with what is written for each value. -/
def applicationMeaning (manifest : ApplicationManifest) (quickActions : List QuickActionConfig)
    (executable : List Char) (uris : List (List Char)) : DesktopEntry.Meaning :=
  ⟨"Desktop Entry".toList,
    [("Type".toList, "Application".toList, .text "Application".toList),
      ("Version".toList, "1.5".toList, .text "1.5".toList),
      ("Name".toList, desktopValue manifest.name, .text manifest.name.toList),
      ("Comment".toList, desktopValue manifest.description, .text manifest.description.toList),
      ("Exec".toList, executable ++ " %U".toList, .command (executable :: uris)),
      ("Icon".toList, manifest.identifier.toList, .text manifest.identifier.toList),
      ("Terminal".toList, "false".toList, .flag false),
      ("Categories".toList, joinLines ';' [(freedesktopCategory manifest.category).toList],
        .texts [(freedesktopCategory manifest.category).toList])] ++
    (if mimeTypes manifest.lifecycle = [] then []
      else [("MimeType".toList, joinLines ';' (mimeTypes manifest.lifecycle),
        .texts (mimeTypes manifest.lifecycle))]) ++
    (if quickActions = [] then []
      else [("Actions".toList, joinLines ';' (quickActions.map (·.id.toList)),
        .texts (quickActions.map (·.id.toList)))]) ++
    [("StartupWMClass".toList, manifest.identifier.toList, .text manifest.identifier.toList)]⟩

/-- The group of a quick action with what is written for its values. -/
def actionMeaning (executable : List Char) (action : QuickActionConfig) : DesktopEntry.Meaning :=
  ⟨"Desktop Action ".toList ++ action.id.toList,
    [("Name".toList, desktopValue action.label, .text action.label.toList),
      ("Exec".toList, executable ++ ' ' :: ("--pam-quick-action=".toList ++ action.id.toList),
        .command [executable, "--pam-quick-action=".toList ++ action.id.toList])]⟩

theorem intended_eq (manifest : ApplicationManifest) (quickActions : List QuickActionConfig)
    (executable : List Char) (uris : List (List Char)) :
    intended manifest quickActions executable uris =
      (applicationMeaning manifest quickActions executable uris ::
        quickActions.map (actionMeaning executable)).map (·.map Prod.snd) := by
  rw [intended, List.map_cons, List.map_map]
  congr 1
  unfold applicationGroup applicationMeaning DesktopEntry.Group.map
  by_cases hmime : mimeTypes manifest.lifecycle = []
  · by_cases hquick : quickActions = []
    · simp [hmime, hquick]
    · simp [hmime, hquick]
  · by_cases hquick : quickActions = []
    · simp [hmime, hquick]
    · simp [hmime, hquick]

theorem action_written (executable : List Char) (action : QuickActionConfig) :
    actionLines executable action =
      [] :: ((actionMeaning executable action).map Prod.fst).lines := by
  unfold actionLines actionMeaning DesktopEntry.Group.map DesktopEntry.Group.lines
  have hheader : "[Desktop Action ".toList = '[' :: "Desktop Action ".toList := by simp
  have hname : "Name=".toList = "Name".toList ++ ['='] := by simp
  have hexec : "Exec=".toList = "Exec".toList ++ ['='] := by simp
  have hargument : " --pam-quick-action=".toList = ' ' :: "--pam-quick-action=".toList := by simp
  have hclose : "]".toList = [']'] := by simp
  rw [hheader, hname, hexec, hargument, hclose]
  simp only [List.map_cons, List.map_nil, List.append_assoc, List.cons_append, List.nil_append]

/-- The entry is the file of its groups. -/
theorem desktop_entry_written (manifest : ApplicationManifest)
    (quickActions : List QuickActionConfig) (executable : List Char) (uris : List (List Char)) :
    desktopEntry manifest quickActions executable = joinLines '\n' (DesktopEntry.fileLines
      ((applicationMeaning manifest quickActions executable uris).map Prod.fst)
      ((quickActions.map (actionMeaning executable)).map (·.map Prod.fst))) := by
  have htypes : mimeTypes manifest.lifecycle ≠ [] →
      [';'].intercalate (mimeTypes manifest.lifecycle) ++ [';'] =
        (mimeTypes manifest.lifecycle).flatMap (· ++ [';']) :=
    fun h => DesktopEntry.intercalate_terminated ';' h
  have hids : quickActions ≠ [] →
      [';'].intercalate (quickActions.map (·.id.toList)) ++ [';'] =
        (quickActions.map (·.id.toList)).flatMap (· ++ [';']) :=
    fun h => DesktopEntry.intercalate_terminated ';' (List.map_eq_nil_iff.not.mpr h)
  rw [desktop_entry_lines, DesktopEntry.fileLines, List.map_map, List.flatMap_map,
    funext (action_written executable)]
  congr 1
  unfold keysBefore linesAfter applicationMeaning DesktopEntry.Group.map DesktopEntry.Group.lines
  by_cases hmime : mimeTypes manifest.lifecycle = []
  · by_cases hquick : quickActions = []
    · simp [hmime, hquick, joinLines]
    · simp [hmime, hquick, joinLines, hids hquick]
  · by_cases hquick : quickActions = []
    · simp [hmime, hquick, joinLines, htypes hmime]
    · simp [hmime, hquick, joinLines, htypes hmime, hids hquick]

/-! ## What the checks leave -/

/-- The name of the executable is not empty. -/
theorem executable_name_nonempty {build : Build} (hvalid : manifest.validate build = .ok ()) :
    executableName manifest ≠ [] := by
  unfold ApplicationManifest.validate at hvalid
  obtain ⟨⟨⟩, hidentifier, -⟩ := except_bind_ok.mp hvalid
  unfold validateApplicationIdentifier at hidentifier
  dsimp only at hidentifier
  split at hidentifier
  · cases hidentifier
  · have hsegments := validate_segments_nonempty hidentifier
    intro hempty
    have hpieces : manifest.identifier.toList.splitOn '.' ≠ [] := List.splitOn_ne_nil '.' _
    rw [executableName, List.getLast?_eq_some_getLast hpieces] at hempty
    exact hsegments (hempty ▸ List.getLast_mem hpieces)

/-- A plain program without a path, or with a full one, can be named. -/
theorem names_plain {program : List Char} (hplain : ∀ c ∈ program, DesktopEntry.plain c = true)
    (hpath : '/' ∉ program ∨ program.head? = some '/') :
    DesktopEntry.namesProgram program = true := by
  have hequals : program.contains '=' = false := by
    rw [← Bool.not_eq_true, List.contains_iff_mem]
    exact fun hmem => absurd (hplain _ hmem) (by decide)
  unfold DesktopEntry.namesProgram
  rw [hequals]
  obtain hpath | hpath := hpath
  · rw [← List.contains_iff_mem, Bool.not_eq_true] at hpath
    rw [hpath]
    rfl
  · rw [hpath]
    simp

/-- The programs are plain and none of them is empty. -/
theorem executables_plain {build : Build} (hvalid : manifest.validate build = .ok ()) :
    ∀ executable ∈ executables manifest, executable ≠ [] ∧
      (∀ c ∈ executable, DesktopEntry.plain c = true) ∧
      DesktopEntry.namesProgram executable = true := by
  have hmanifest := ApplicationManifest.validate_ok hvalid
  obtain ⟨hidentifier, hname⟩ := identifier_plain hmanifest
  intro executable hexecutable
  simp only [executables, List.mem_cons, List.not_mem_nil, or_false] at hexecutable
  obtain rfl | rfl | rfl := hexecutable
  · exact ⟨by decide, List.all_eq_true.mp (by decide), by decide⟩
  · have hopt : ∀ c ∈ "/opt/".toList, DesktopEntry.plain c = true :=
      List.all_eq_true.mp (by decide)
    have hbin : ∀ c ∈ "/bin/".toList, DesktopEntry.plain c = true :=
      List.all_eq_true.mp (by decide)
    have hplain : ∀ c ∈ "/opt/".toList ++ manifest.identifier.toList ++ "/bin/".toList ++
        executableName manifest, DesktopEntry.plain c = true := by
      simp only [List.forall_mem_append]
      exact ⟨⟨⟨hopt, hidentifier⟩, hbin⟩, hname⟩
    exact ⟨by simp, hplain, names_plain hplain (.inr (by simp))⟩
  · have hslash : '/' ∉ executableName manifest := fun hmem =>
      absurd (hmanifest.identifier _ (executable_name_characters hmem)) (by decide)
    exact ⟨executable_name_nonempty hvalid, hname, names_plain hname (.inl hslash)⟩

/-- The pieces of a list have nothing that a reader of the list takes for something else. -/
def PlainPieces (pieces : List (List Char)) : Prop :=
  ∀ piece ∈ pieces, ∀ c ∈ piece, c ≠ '\\' ∧ c ≠ ';' ∧ c ≠ ' ' ∧ c ≠ '\n'

/-- An alphabet without these four characters has nothing that a list quotes. -/
theorem unquoted_of_alphabet {alphabet : Char → Bool}
    (halphabet : "\\; \n".toList.all (!alphabet ·) = true) {c : Char} (hc : alphabet c = true) :
    c ≠ '\\' ∧ c ≠ ';' ∧ c ≠ ' ' ∧ c ≠ '\n' := by
  have hforeign : c ∉ "\\; \n".toList := by
    intro hmem
    have hnone := List.all_eq_true.mp halphabet c hmem
    rw [hc] at hnone
    cases hnone
  refine ⟨?_, ?_, ?_, ?_⟩ <;> intro heq <;> exact hforeign (by simp [heq])

theorem category_plain (category : ApplicationCategory) :
    PlainPieces [(freedesktopCategory category).toList] := by
  have hletters : (freedesktopCategory category).toList.all Char.isAlpha = true := by
    cases category <;> decide
  intro piece hpiece c hc
  rw [List.mem_singleton.mp hpiece] at hc
  exact unquoted_of_alphabet (by decide) (List.all_eq_true.mp hletters c hc)

theorem mime_types_plain {build : Build} (hvalid : manifest.validate build = .ok ()) :
    PlainPieces (mimeTypes manifest.lifecycle) := by
  obtain ⟨hschemes, htypes⟩ :=
    LifecycleConfig.validate_ok (ApplicationManifest.lifecycle_of_validate hvalid)
  have hhandler : ∀ c ∈ "x-scheme-handler/".toList, isMimeCharacter c = true :=
    List.all_eq_true.mp (by decide)
  intro piece hpiece c hc
  suffices hmime : isMimeCharacter c = true from unquoted_of_alphabet (by decide) hmime
  obtain hpiece | hpiece := List.mem_append.mp hpiece
  · obtain ⟨mime, hmime, rfl⟩ := List.mem_map.mp hpiece
    exact htypes mime hmime c hc
  · obtain ⟨scheme, hscheme, rfl⟩ := List.mem_map.mp hpiece
    obtain hc | hc := List.mem_append.mp hc
    · exact hhandler c hc
    · exact hschemes scheme hscheme c hc

theorem action_ids_plain (hactions : ∀ action ∈ quickActions, action.Accepted) :
    PlainPieces (quickActions.map (·.id.toList)) := by
  intro piece hpiece c hc
  obtain ⟨action, haction, rfl⟩ := List.mem_map.mp hpiece
  have hcharacter := (hactions action haction).id c hc
  refine ⟨?_, ?_, ?_, ?_⟩ <;> intro heq <;> rw [heq] at hcharacter <;>
    exact absurd hcharacter (by decide)

/-! ## The values -/

variable {codes : Char → Option (List (List Char))}

/-- A list without special characters is read back. -/
theorem plain_pieces_read {pieces : List (List Char)} (h : PlainPieces pieces) :
    DesktopEntry.valueOf codes ((joinLines ';' pieces).dropWhile (· = ' ')) .texts =
      some (.texts pieces) := by
  have htrimmed : (joinLines ';' pieces).dropWhile (· = ' ') = joinLines ';' pieces := by
    rw [List.dropWhile_eq_self_iff]
    intro hlength hblank
    have hmem := List.getElem_mem hlength
    obtain ⟨piece, hpiece, hmem⟩ := List.mem_flatMap.mp hmem
    obtain hmem | hmem := List.mem_append.mp hmem
    · exact (h piece hpiece _ hmem).2.2.1 (of_decide_eq_true hblank)
    · rw [List.mem_singleton.mp hmem] at hblank
      cases hblank
  rw [htrimmed, DesktopEntry.valueOf, DesktopEntry.texts_from_joined]
  · rfl
  · intro piece hpiece
    exact ⟨fun hmem => (h piece hpiece _ hmem).1 rfl, fun hmem => (h piece hpiece _ hmem).2.1 rfl⟩

/-- A text without special characters is read back. -/
theorem plain_text_read {text : List Char} (h : ∀ c ∈ text, DesktopEntry.plain c = true) :
    DesktopEntry.valueOf codes (text.dropWhile (· = ' ')) .text = some (.text text) := by
  have htrimmed : text.dropWhile (· = ' ') = text := by
    rw [List.dropWhile_eq_self_iff]
    intro hlength hblank
    have hplain := h _ (List.getElem_mem hlength)
    rw [of_decide_eq_true hblank] at hplain
    exact absurd hplain (by decide)
  have hescape : '\\' ∉ text := fun hmem => absurd (h _ hmem) (by decide)
  rw [htrimmed, DesktopEntry.valueOf, DesktopEntry.unescape_unchanged hescape]
  rfl

/-- The command of a plain program with one argument. -/
theorem program_read {argument : List Char} (hempty : executable ≠ [])
    (hplain : ∀ c ∈ executable, DesktopEntry.plain c = true)
    (hnames : DesktopEntry.namesProgram executable = true)
    (hargument : ∀ c ∈ argument, DesktopEntry.reserved c = false) (hargument' : argument ≠ []) :
    DesktopEntry.valueOf codes ((executable ++ ' ' :: argument).dropWhile (· = ' ')) .command =
      (DesktopEntry.expand codes ⟨argument, false⟩).map fun rest =>
        .command (executable :: rest) := by
  have htrimmed : (executable ++ ' ' :: argument).dropWhile (· = ' ') =
      executable ++ ' ' :: argument := by
    obtain ⟨first, path, rfl⟩ := List.exists_cons_of_ne_nil hempty
    have hfirst := DesktopEntry.not_space
      (DesktopEntry.not_reserved (hplain first List.mem_cons_self))
    rw [List.cons_append, List.dropWhile_cons_of_neg (by simpa using hfirst)]
  rw [htrimmed, DesktopEntry.valueOf,
    DesktopEntry.command_argument codes hplain hnames hempty hargument hargument', Option.map_map]
  rfl

theorem escaped_value_iff (text : String) :
    DesktopEntry.valueOf codes ((desktopValue text).dropWhile (· = ' ')) .text =
      some (.text text.toList) ↔ Readable text := by
  rw [← value_read_iff, DesktopEntry.valueOf, Option.map_eq_some_iff]
  constructor
  · intro h
    obtain ⟨value, hvalue, heq⟩ := h
    rw [hvalue, DesktopEntry.Value.text.inj heq]
  · exact fun h => ⟨_, h, rfl⟩

/-! ## Groups and keys -/

theorem joined_unbroken {pieces : List (List Char)} (h : PlainPieces pieces) :
    '\n' ∉ joinLines ';' pieces := by
  intro hmem
  obtain ⟨piece, hpiece, hmem⟩ := List.mem_flatMap.mp hmem
  obtain hmem | hmem := List.mem_append.mp hmem
  · exact (h piece hpiece _ hmem).2.2.2 rfl
  · cases List.mem_singleton.mp hmem

/-- All keys that the group of the application can have. -/
def applicationSlots (manifest : ApplicationManifest) (quickActions : List QuickActionConfig)
    (executable : List Char) (uris : List (List Char)) :
    List (List Char × List Char × DesktopEntry.Value) :=
  [("Type".toList, "Application".toList, .text "Application".toList),
    ("Version".toList, "1.5".toList, .text "1.5".toList),
    ("Name".toList, desktopValue manifest.name, .text manifest.name.toList),
    ("Comment".toList, desktopValue manifest.description, .text manifest.description.toList),
    ("Exec".toList, executable ++ " %U".toList, .command (executable :: uris)),
    ("Icon".toList, manifest.identifier.toList, .text manifest.identifier.toList),
    ("Terminal".toList, "false".toList, .flag false),
    ("Categories".toList, joinLines ';' [(freedesktopCategory manifest.category).toList],
      .texts [(freedesktopCategory manifest.category).toList]),
    ("MimeType".toList, joinLines ';' (mimeTypes manifest.lifecycle),
      .texts (mimeTypes manifest.lifecycle)),
    ("Actions".toList, joinLines ';' (quickActions.map (·.id.toList)),
      .texts (quickActions.map (·.id.toList))),
    ("StartupWMClass".toList, manifest.identifier.toList, .text manifest.identifier.toList)]

theorem application_slots (manifest : ApplicationManifest)
    (quickActions : List QuickActionConfig) (executable : List Char) (uris : List (List Char)) :
    (applicationMeaning manifest quickActions executable uris).entries.Sublist
      (applicationSlots manifest quickActions executable uris) := by
  unfold applicationMeaning applicationSlots
  by_cases hmime : mimeTypes manifest.lifecycle = []
  · by_cases hquick : quickActions = []
    · simp [hmime, hquick]
    · simp [hmime, hquick]
  · by_cases hquick : quickActions = []
    · simp [hmime, hquick]
    · simp [hmime, hquick]

/-- The group of the application comes back. -/
theorem application_writable {build : Build} (hvalid : manifest.validate build = .ok ())
    (hactions : ∀ action ∈ quickActions, action.Accepted)
    (hexecutable : executable ∈ executables manifest) :
    ((applicationMeaning manifest quickActions executable uris).map Prod.fst).Writable := by
  have hslots := application_slots manifest quickActions executable uris
  have hkeys : (applicationSlots manifest quickActions executable uris).map Prod.fst =
      ["Type".toList, "Version".toList, "Name".toList, "Comment".toList, "Exec".toList,
        "Icon".toList, "Terminal".toList, "Categories".toList, "MimeType".toList,
        "Actions".toList, "StartupWMClass".toList] := rfl
  have hentries : ((applicationMeaning manifest quickActions executable uris).map
      Prod.fst).entries.map Prod.fst =
      (applicationMeaning manifest quickActions executable uris).entries.map Prod.fst :=
    List.map_map
  refine ⟨?_, ?_, ?_, ?_⟩
  · show DesktopEntry.validName "Desktop Entry".toList = true
    decide
  · intro entry hentry
    have hmem := (hslots.map Prod.fst).subset (hentries ▸ List.mem_map_of_mem hentry)
    rw [hkeys] at hmem
    exact List.all_eq_true.mp (by decide) entry.1 hmem
  · rw [hentries]
    refine (hslots.map Prod.fst).nodup ?_
    rw [hkeys]
    decide
  · have hmanifest := ApplicationManifest.validate_ok hvalid
    obtain ⟨-, hplain, -⟩ := executables_plain hvalid executable hexecutable
    have hprogram : '\n' ∉ executable ++ " %U".toList := by
      intro hmem
      obtain hmem | hmem := List.mem_append.mp hmem
      · exact absurd (hplain _ hmem) (by decide)
      · exact absurd hmem (by decide)
    have hidentifier := identifier_unbroken hmanifest
    have hall : ∀ slot ∈ applicationSlots manifest quickActions executable uris,
        '\n' ∉ slot.2.1 := by
      unfold applicationSlots
      simp only [List.forall_mem_cons]
      exact ⟨by decide, by decide, desktop_value_unbroken hmanifest.name,
        desktop_value_unbroken hmanifest.description, hprogram, hidentifier, by decide,
        joined_unbroken (category_plain manifest.category),
        joined_unbroken (mime_types_plain hvalid), joined_unbroken (action_ids_plain hactions),
        hidentifier, nofun⟩
    intro entry hentry
    obtain ⟨slot, hslot, rfl⟩ := List.mem_map.mp hentry
    exact hall slot (hslots.subset hslot)

/-- Identifiers are printable, and have no brackets. -/
theorem identifier_printable {c : Char} (h : isIdentifierCharacter c = true) :
    (32 ≤ c.toNat && c.toNat < 127 && c != '[' && c != ']') = true := by
  have hranges : (97 ≤ c.toNat ∧ c.toNat ≤ 122) ∨ (65 ≤ c.toNat ∧ c.toNat ≤ 90) ∨
      (48 ≤ c.toNat ∧ c.toNat ≤ 57) ∨ c = '.' ∨ c = '_' ∨ c = '-' := by
    simp only [isIdentifierCharacter, isAsciiAlphanumeric, isAsciiAlphabetic, isAsciiLowercase,
      isAsciiUppercase, isAsciiDigit, Bool.or_eq_true, Bool.and_eq_true, decide_eq_true_iff,
      Char.le_def, UInt32.le_iff_toNat_le, List.contains_iff_mem, List.mem_cons,
      List.not_mem_nil, or_false] at h
    obtain ((h | h) | h) | h := h
    · exact .inl h
    · exact .inr (.inl h)
    · exact .inr (.inr (.inl h))
    · exact .inr (.inr (.inr h))
  have hnumbers : 32 ≤ c.toNat ∧ c.toNat < 127 ∧ c.toNat ≠ 91 ∧ c.toNat ≠ 93 := by
    obtain h | h | h | rfl | rfl | rfl := hranges
    · omega
    · omega
    · omega
    · decide
    · decide
    · decide
  obtain ⟨hlow, hhigh, hopen, hclose⟩ := hnumbers
  simp only [Bool.and_eq_true, decide_eq_true_iff, bne_iff_ne]
  exact ⟨⟨⟨hlow, hhigh⟩, fun heq => hopen (heq ▸ rfl)⟩, fun heq => hclose (heq ▸ rfl)⟩

/-- The group of a quick action comes back. -/
theorem action_writable {build : Build} (hvalid : manifest.validate build = .ok ())
    {action : QuickActionConfig} (haction : action.Accepted)
    (hexecutable : executable ∈ executables manifest) :
    ((actionMeaning executable action).map Prod.fst).Writable := by
  obtain ⟨-, hplain, -⟩ := executables_plain hvalid executable hexecutable
  have hid := action_unbroken haction
  have hlabel := desktop_value_unbroken haction.label
  have hprogram : '\n' ∉ executable := fun hmem => absurd (hplain _ hmem) (by decide)
  refine ⟨?_, ?_, ?_, ?_⟩
  · refine List.all_eq_true.mpr (List.forall_mem_append.mpr ⟨?_, ?_⟩)
    · exact List.all_eq_true.mp (by decide)
    · exact fun c hc => identifier_printable (haction.id c hc)
  · unfold actionMeaning DesktopEntry.Group.map
    simp [DesktopEntry.isKey]
  · unfold actionMeaning DesktopEntry.Group.map
    simp
  · unfold actionMeaning DesktopEntry.Group.map
    simp [hlabel, hprogram, hid]

/-- The groups have different names. -/
theorem names_nodup (hids : (quickActions.map (·.id)).Nodup) :
    ((applicationMeaning manifest quickActions executable uris ::
      quickActions.map (actionMeaning executable)).map (·.name)).Nodup := by
  rw [List.map_cons, List.nodup_cons, List.map_map]
  constructor
  · intro hmem
    obtain ⟨action, -, hname⟩ := List.mem_map.mp hmem
    have htaken : (("Desktop Action ".toList ++ action.id.toList).take 9) =
        "Desktop Entry".toList.take 9 := congrArg (List.take 9) hname
    rw [List.take_append_of_le_length (by decide)] at htaken
    exact absurd htaken (by decide)
  · have hinjective : Function.Injective
        (fun id : String => "Desktop Action ".toList ++ id.toList) := by
      intro id id' heq
      exact String.toList_injective (List.append_cancel_left heq)
    have hmapped := List.Nodup.map hinjective hids
    rw [List.map_map] at hmapped
    exact hmapped

/-- What the checks of a shell leave of its quick actions. -/
theorem quick_actions_of_validate {shell : ShellConfig} (h : shell.validate = .ok ()) :
    (∀ action ∈ shell.quickActions, action.Accepted) ∧
      (shell.quickActions.map (·.id)).Nodup := by
  have hrest : (do
      validateShortcuts [] [] shell.shortcuts
      refuseIf (10 < shell.quickActions.length)
        "desktop applications cannot register more than ten quick actions"
      let _ ← validateEach QuickActionConfig.validate (·.id)
        (fun action => "quick action identifier " ++ debugText action.id ++ " is duplicated") []
        shell.quickActions) = .ok () := by
    unfold ShellConfig.validate at h
    obtain ⟨⟨menuIds, count⟩, -, h⟩ := except_bind_ok.mp h
    obtain ⟨⟨⟩, -, h⟩ := except_bind_ok.mp h
    obtain ⟨⟨⟩, -, h⟩ := except_bind_ok.mp h
    obtain ⟨⟨⟩, -, h⟩ := except_bind_ok.mp h
    dsimp only at h
    split at h
    · obtain ⟨⟨⟩, -, h⟩ := except_bind_ok.mp h
      split at h
      · cases h
      · exact h
    · exact h
  obtain ⟨⟨⟩, -, hrest⟩ := except_bind_ok.mp hrest
  obtain ⟨⟨⟩, -, hrest⟩ := except_bind_ok.mp hrest
  obtain ⟨keys, hactions, -⟩ := except_bind_ok.mp hrest
  obtain ⟨hchecked, hnodup, -⟩ := validate_each_ok hactions
  exact ⟨fun action haction => QuickActionConfig.validate_ok (hchecked action haction), hnodup⟩

/-- The groups of an entry come back. -/
theorem groups_writable {build : Build} (hvalid : manifest.validate build = .ok ())
    (hactions : ∀ action ∈ quickActions, action.Accepted)
    (hexecutable : executable ∈ executables manifest) (uris : List (List Char)) :
    ∀ group ∈ applicationMeaning manifest quickActions executable uris ::
      quickActions.map (actionMeaning executable), (group.map Prod.fst).Writable := by
  intro group hgroup
  obtain rfl | hgroup := List.mem_cons.mp hgroup
  · exact application_writable hvalid hactions hexecutable
  · obtain ⟨action, haction, rfl⟩ := List.mem_map.mp hgroup
    exact action_writable hvalid (hactions action haction) hexecutable

end Written

/-- Whatever the texts are, an entry has the groups and keys that it is meant to have. -/
theorem keys_read_back {build : Build} {manifest : ApplicationManifest} {shell : ShellConfig}
    (hmanifest : manifest.validate build = .ok ()) (hshell : shell.validate = .ok ())
    {executable : List Char} (hexecutable : executable ∈ executables manifest)
    (uris : List (List Char)) :
    (DesktopEntry.parse (desktopEntry manifest shell.quickActions executable)).map
        (·.map DesktopEntry.Group.outline) =
      some ((intended manifest shell.quickActions executable uris).map
        DesktopEntry.Group.outline) := by
  obtain ⟨hactions, hids⟩ := quick_actions_of_validate hshell
  rw [desktop_entry_written manifest shell.quickActions executable uris, intended_eq]
  exact DesktopEntry.parse_outline (groups_writable hmanifest hactions hexecutable uris)
    (names_nodup hids)

/-! ## Entries -/

/-- The values of an application are read back exactly if its texts are readable. -/
theorem application_values_iff {build : Build} {manifest : ApplicationManifest}
    {quickActions : List QuickActionConfig} (hmanifest : manifest.validate build = .ok ())
    (hactions : ∀ action ∈ quickActions, action.Accepted) {executable : List Char}
    (hexecutable : executable ∈ executables manifest) (uris : List (List Char)) :
    (∀ entry ∈ (applicationMeaning manifest quickActions executable uris).entries,
      DesktopEntry.valueOf (fieldCodes uris) (entry.2.1.dropWhile (· = ' '))
        (DesktopEntry.kindOf entry.1) = some entry.2.2) ↔
      Readable manifest.name ∧ Readable manifest.description := by
  constructor
  · intro h
    have hmem : ∀ entry ∈ ((applicationSlots manifest quickActions executable uris).take 8),
        entry ∈ (applicationMeaning manifest quickActions executable uris).entries :=
      fun entry hentry => List.mem_append_left _ (List.mem_append_left _
        (List.mem_append_left _ hentry))
    have hname := h _ (hmem _ (List.mem_cons_of_mem _ (List.mem_cons_of_mem _
      List.mem_cons_self)))
    have hdescription := h _ (hmem _ (List.mem_cons_of_mem _ (List.mem_cons_of_mem _
      (List.mem_cons_of_mem _ List.mem_cons_self))))
    exact ⟨(escaped_value_iff _).mp hname, (escaped_value_iff _).mp hdescription⟩
  · intro h
    obtain ⟨hname, hdescription⟩ := h
    obtain ⟨hempty, hplain, hnames⟩ := executables_plain hmanifest executable hexecutable
    have hidentifier := (identifier_plain (ApplicationManifest.validate_ok hmanifest)).1
    have hargument : ∀ c ∈ "%U".toList, DesktopEntry.reserved c = false := by
      simp [DesktopEntry.reserved]
    have hexec : DesktopEntry.valueOf (fieldCodes uris)
        ((executable ++ " %U".toList).dropWhile (· = ' ')) .command =
        some (.command (executable :: uris)) :=
      program_read hempty hplain hnames hargument (by decide)
    have hall : ∀ slot ∈ applicationSlots manifest quickActions executable uris,
        DesktopEntry.valueOf (fieldCodes uris) (slot.2.1.dropWhile (· = ' '))
          (DesktopEntry.kindOf slot.1) = some slot.2.2 := by
      unfold applicationSlots
      simp only [List.forall_mem_cons]
      exact ⟨plain_text_read (List.all_eq_true.mp (by decide)),
        plain_text_read (List.all_eq_true.mp (by decide)),
        (escaped_value_iff _).mpr hname, (escaped_value_iff _).mpr hdescription, hexec,
        plain_text_read hidentifier, rfl, plain_pieces_read (category_plain _),
        plain_pieces_read (mime_types_plain hmanifest),
        plain_pieces_read (action_ids_plain hactions), plain_text_read hidentifier,
        fun _ hmem => absurd hmem List.not_mem_nil⟩
    exact fun entry hentry =>
      hall entry ((application_slots manifest quickActions executable uris).subset hentry)

/-- The values of a quick action are read back exactly if its label is readable. -/
theorem action_values_iff {build : Build} {manifest : ApplicationManifest}
    (hmanifest : manifest.validate build = .ok ()) {action : QuickActionConfig}
    (haction : action.Accepted) {executable : List Char}
    (hexecutable : executable ∈ executables manifest) (uris : List (List Char)) :
    (∀ entry ∈ (actionMeaning executable action).entries,
      DesktopEntry.valueOf (fieldCodes uris) (entry.2.1.dropWhile (· = ' '))
        (DesktopEntry.kindOf entry.1) = some entry.2.2) ↔ Readable action.label := by
  obtain ⟨hempty, hplain, hnames⟩ := executables_plain hmanifest executable hexecutable
  have hid : ∀ c ∈ "--pam-quick-action=".toList ++ action.id.toList,
      DesktopEntry.reserved c = false ∧ c ≠ '%' := by
    have hflag : ∀ c ∈ "--pam-quick-action=".toList,
        DesktopEntry.reserved c = false ∧ c ≠ '%' := by
      simp [DesktopEntry.reserved]
    refine List.forall_mem_append.mpr ⟨hflag, fun c hc => ?_⟩
    have hplain : DesktopEntry.plain c = true :=
      plain_of_alphabet (by decide) (haction.id c hc)
    exact ⟨DesktopEntry.not_reserved hplain, fun heq => absurd (heq ▸ hplain) (by decide)⟩
  have hpercent : '%' ∉ "--pam-quick-action=".toList ++ action.id.toList :=
    fun hmem => (hid _ hmem).2 rfl
  have hexec : DesktopEntry.valueOf (fieldCodes uris)
      ((executable ++ ' ' :: ("--pam-quick-action=".toList ++ action.id.toList)).dropWhile
        (· = ' ')) .command =
      some (.command [executable, "--pam-quick-action=".toList ++ action.id.toList]) := by
    rw [program_read hempty hplain hnames (fun c hc => (hid c hc).1) (by simp),
      DesktopEntry.expand_plain _ hpercent]
    rfl
  unfold actionMeaning
  simp only [List.forall_mem_cons]
  constructor
  · exact fun h => (escaped_value_iff _).mp h.1
  · intro h
    exact ⟨(escaped_value_iff _).mpr h, hexec, fun _ hmem => absurd hmem List.not_mem_nil⟩

/-- The entries of an application are read back exactly if its name, its description and the
labels of its quick actions have no semicolon and no blank at the start. -/
theorem entry_reads_back_iff {build : Build} (manifest : ApplicationManifest)
    (shell : ShellConfig) (hmanifest : manifest.validate build = .ok ())
    (hshell : shell.validate = .ok ()) :
    ReadsBack manifest shell.quickActions ↔
      Readable manifest.name ∧ Readable manifest.description ∧
        ∀ action ∈ shell.quickActions, Readable action.label := by
  obtain ⟨hactions, hids⟩ := quick_actions_of_validate hshell
  have hread : ∀ executable ∈ executables manifest, ∀ uris,
      (DesktopEntry.read (fieldCodes uris)
          (desktopEntry manifest shell.quickActions executable) =
        some (intended manifest shell.quickActions executable uris) ↔
      Readable manifest.name ∧ Readable manifest.description ∧
        ∀ action ∈ shell.quickActions, Readable action.label) := by
    intro executable hexecutable uris
    rw [desktop_entry_written manifest shell.quickActions executable uris, intended_eq,
      DesktopEntry.read_meant_iff (groups_writable hmanifest hactions hexecutable uris)
        (names_nodup hids), List.forall_mem_cons, List.forall_mem_map,
      application_values_iff hmanifest hactions hexecutable uris, and_assoc]
    refine and_congr_right fun _ => and_congr_right fun _ => ?_
    exact forall₂_congr fun action haction =>
      action_values_iff hmanifest (hactions action haction) hexecutable uris
  constructor
  · intro h
    have hmem : "@PAM_EXEC@".toList ∈ executables manifest := List.mem_cons_self
    exact (hread _ hmem []).mp (h _ hmem [])
  · exact fun h executable hexecutable uris => (hread executable hexecutable uris).mpr h

/-- The application without its description. -/
def undescribed : ApplicationManifest := { notes with description := "" }

/-- A shell with the quick action. -/
def composing : ShellConfig := { quickActions := [compose] }

/-- An entry without semicolons is read back. -/
theorem undescribed_reads_back : ReadsBack undescribed composing.quickActions := by
  have hmanifest : undescribed.validate anyBuild = .ok () := by decide +kernel
  have hshell : composing.validate = .ok () := by decide +kernel
  exact (entry_reads_back_iff undescribed composing hmanifest hshell).mpr
    ⟨by decide, by decide, by decide⟩

/-- A description with a semicolon has an escape that its reader does not know. -/
theorem semicolon_unread : notes.validate anyBuild = .ok () ∧ composing.validate = .ok () ∧
    desktopValue notes.description = "Notes\\; and more".toList ∧
    ¬ ReadsBack notes composing.quickActions := by
  refine ⟨by decide +kernel, by decide +kernel, by decide +kernel, fun h => ?_⟩
  have hunread : DesktopEntry.read (fieldCodes [])
      (desktopEntry notes composing.quickActions "@PAM_EXEC@".toList) = none := by
    decide +kernel
  have hread := h "@PAM_EXEC@".toList List.mem_cons_self []
  rw [hunread] at hread
  cases hread

end PamDesktop.Packager.Activation
