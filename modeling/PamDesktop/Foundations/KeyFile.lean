import PamDesktop.Foundations.DesktopEntry
import PamDesktop.Foundations.Lines

/-!
# Key files

A whole desktop entry: groups, their keys, and for each key a value of the kind that the key has.
`parse_lines` is the round trip of groups and keys, and `read_meant_iff` reduces the round trip of
a file to that of its values.
-/

namespace Foundations.DesktopEntry

/-! ## Groups and keys -/

/-- A group with its keys, each with a value or with the text of one. -/
structure Group (α : Type) where
  name : List Char
  entries : List (List Char × α)
deriving DecidableEq

/-- The group with other values. -/
def Group.map {α β : Type} (f : α → β) (group : Group α) : Group β :=
  ⟨group.name, group.entries.map fun entry => (entry.1, f entry.2)⟩

/-- The name of a group and its keys. -/
def Group.outline {α : Type} (group : Group α) : List Char × List (List Char) :=
  (group.name, group.entries.map Prod.fst)

theorem outline_map {α β : Type} (f : α → β) (group : Group α) :
    (group.map f).outline = group.outline := by
  show (group.name, (group.entries.map _).map Prod.fst) = _
  rw [List.map_map]
  rfl

/-- Lines that say nothing. -/
def isComment (line : List Char) : Bool := line.all (· == ' ') || line.head? == some '#'

/-- A key may have a locale in brackets. -/
def validKey (key : List Char) : Bool :=
  isKey (key.takeWhile (· ≠ '[')) && (!key.contains '[' || key.getLast? == some ']')

/-- The names of groups are printable ASCII without brackets. -/
def validName (name : List Char) : Bool :=
  name.all fun c => 32 ≤ c.toNat && c.toNat < 127 && c != '[' && c != ']'

/-- No group has a key twice. -/
def Group.valid {α : Type} (group : Group α) : Bool :=
  validName group.name && group.entries.all (fun entry => validKey entry.1) &&
    decide (group.entries.map Prod.fst).Nodup

/-- The keys before the first group, and the groups. -/
def groupsFrom : List (List Char) →
    Option (List (List Char × List Char) × List (Group (List Char)))
  | [] => some ([], [])
  | line :: rest =>
      (groupsFrom rest).bind fun (entries, groups) =>
        match lineOf line with
        | .group name => some ([], ⟨name, entries⟩ :: groups)
        | .pair key value => some ((key, value) :: entries, groups)
        | .other => if isComment line then some (entries, groups) else none

/-- The groups of a file: no key is outside of them and no name is taken twice. -/
def parse (text : List Char) : Option (List (Group (List Char))) :=
  match groupsFrom (text.splitOn '\n') with
  | some ([], groups) =>
      if groups.all Group.valid && decide (groups.map (·.name)).Nodup then some groups else none
  | _ => none

/-! ## Values -/

/-- The kinds of values. -/
inductive Kind where
  | text | flag | texts | command

/-- A value: a command is the arguments that it runs. -/
inductive Value where
  | text (value : List Char)
  | flag (value : Bool)
  | texts (values : List (List Char))
  | command (arguments : List (List Char))
deriving DecidableEq

/-- The kinds of the keys. -/
def kindOf (key : List Char) : Kind :=
  if key = "Exec".toList then .command
  else if ["Terminal".toList, "NoDisplay".toList, "Hidden".toList, "DBusActivatable".toList,
      "StartupNotify".toList, "PrefersNonDefaultGPU".toList, "SingleMainWindow".toList].contains
      key then .flag
  else if ["Categories".toList, "MimeType".toList, "Actions".toList, "Keywords".toList,
      "OnlyShowIn".toList, "NotShowIn".toList, "Implements".toList].contains key then .texts
  else .text

/-- The texts of a list, in which a semicolon may be escaped; one more may end it. -/
def textsFrom (read : List Char) : List Char → Option (List (List Char))
  | [] => some (if read = [] then [] else [read])
  | [c] => if c = '\\' then none else some [if c = ';' then read else read ++ [c]]
  | c :: next :: rest =>
      if c = '\\' then
        if next = ';' then textsFrom (read ++ [';']) rest
        else (escaped next).bind fun d => textsFrom (read ++ [d]) rest
      else if c = ';' then (textsFrom [] (next :: rest)).map (read :: ·)
      else textsFrom (read ++ [c]) (next :: rest)

/-- The value that a text is. -/
def valueOf (codes : Char → Option (List (List Char))) (text : List Char) : Kind → Option Value
  | .text => (unescape text).map .text
  | .flag =>
      if text = "true".toList then some (.flag true)
      else if text = "false".toList then some (.flag false)
      else none
  | .texts => (textsFrom [] text).map .texts
  | .command => (command codes text).map .command

/-- A group with its values. -/
def Group.typed (codes : Char → Option (List (List Char))) (group : Group (List Char)) :
    Option (Group Value) :=
  (group.entries.mapM fun entry =>
    (valueOf codes entry.2 (kindOf entry.1)).map fun value => (entry.1, value)).map
    fun entries => ⟨group.name, entries⟩

/-- What a file says. -/
def read (codes : Char → Option (List (List Char))) (text : List Char) :
    Option (List (Group Value)) :=
  (parse text).bind fun groups => groups.mapM (Group.typed codes)

/-! ## The lines of a group -/

/-- A group as it is written. -/
def Group.lines (group : Group (List Char)) : List (List Char) :=
  ('[' :: (group.name ++ [']'])) :: group.entries.map fun entry => entry.1 ++ '=' :: entry.2

/-- Blanks before a value are not part of it. -/
def Group.trimmed (group : Group (List Char)) : Group (List Char) :=
  group.map fun value => value.dropWhile (· = ' ')

/-- A plain key is valid. -/
theorem key_valid {key : List Char} (h : isKey key = true) : validKey key = true := by
  have hplain : ∀ c ∈ key, decide (c ≠ '[') = true :=
    fun c hc => decide_eq_true (key_char h hc).2.2.1
  have hbracket : key.contains '[' = false := by
    rw [← Bool.not_eq_true, List.contains_iff_mem]
    exact fun hmem => (key_char h hmem).2.2.1 rfl
  unfold validKey
  rw [List.takeWhile_eq_self_iff.mpr hplain, h, hbracket]
  rfl

/-- A blank line says nothing. -/
theorem groups_from_blank (rest : List (List Char)) :
    groupsFrom ([] :: rest) = groupsFrom rest := by
  rw [groupsFrom]
  cases groupsFrom rest with
  | none => rfl
  | some found => rfl

/-- The keys of a group go to what follows. -/
theorem groups_from_pairs {entries : List (List Char × List Char)}
    (hkeys : ∀ entry ∈ entries, isKey entry.1 = true) {rest : List (List Char)}
    {more : List (List Char × List Char)} {groups : List (Group (List Char))}
    (hrest : groupsFrom rest = some (more, groups)) :
    groupsFrom ((entries.map fun entry => entry.1 ++ '=' :: entry.2) ++ rest) =
      some ((entries.map fun entry => (entry.1, entry.2.dropWhile (· = ' '))) ++ more,
        groups) := by
  induction entries with
  | nil => exact hrest
  | cons entry entries ih =>
      have hentry := hkeys entry List.mem_cons_self
      rw [List.map_cons, List.cons_append, groupsFrom,
        ih fun other hother => hkeys other (List.mem_cons_of_mem _ hother), Option.bind_some,
        line_of_pair hentry]
      rfl

/-- A group is read back, and what follows it. -/
theorem groups_from_lines {group : Group (List Char)}
    (hkeys : ∀ entry ∈ group.entries, isKey entry.1 = true) {rest : List (List Char)}
    {groups : List (Group (List Char))} (hrest : groupsFrom rest = some ([], groups)) :
    groupsFrom (group.lines ++ rest) = some ([], group.trimmed :: groups) := by
  rw [Group.lines, List.cons_append, groupsFrom, groups_from_pairs hkeys hrest, Option.bind_some,
    line_of_group, List.append_nil]
  rfl

/-! ## Files -/

/-- The lines of a file: a blank line is before every group but the first. -/
def fileLines (first : Group (List Char)) (others : List (Group (List Char))) :
    List (List Char) :=
  first.lines ++ others.flatMap fun group => [] :: group.lines

variable {first : Group (List Char)} {others : List (Group (List Char))}

theorem groups_from_file (hkeys : ∀ group ∈ first :: others, ∀ entry ∈ group.entries,
    isKey entry.1 = true) :
    groupsFrom (fileLines first others ++ [[]]) =
      some ([], (first :: others).map Group.trimmed) := by
  have hothers : ∀ others : List (Group (List Char)),
      (∀ group ∈ others, ∀ entry ∈ group.entries, isKey entry.1 = true) →
      groupsFrom ((others.flatMap fun group => [] :: group.lines) ++ [[]]) =
        some ([], others.map Group.trimmed) := by
    intro others
    induction others with
    | nil => exact fun _ => rfl
    | cons group others ih =>
        intro hkeys
        have hrest := ih fun other hother => hkeys other (List.mem_cons_of_mem _ hother)
        rw [List.flatMap_cons, List.cons_append, List.cons_append, List.append_assoc,
          groups_from_blank, groups_from_lines (hkeys group List.mem_cons_self) hrest]
        rfl
  have hrest := hothers others fun group hgroup => hkeys group (List.mem_cons_of_mem _ hgroup)
  rw [fileLines, List.append_assoc, groups_from_lines (hkeys first List.mem_cons_self) hrest]
  rfl

/-- Whether a group comes back as it is written: its keys are plain and different, and no value
has a line break. -/
def Group.Writable (group : Group (List Char)) : Prop :=
  validName group.name = true ∧ (∀ entry ∈ group.entries, isKey entry.1 = true) ∧
    (group.entries.map Prod.fst).Nodup ∧ ∀ entry ∈ group.entries, '\n' ∉ entry.2

theorem Group.Writable.valid {group : Group (List Char)} (h : group.Writable) :
    group.trimmed.valid = true := by
  obtain ⟨hname, hkeys, hnodup, -⟩ := h
  have hentries : group.trimmed.entries.map Prod.fst = group.entries.map Prod.fst := by
    show (group.entries.map _).map Prod.fst = _
    rw [List.map_map]
    rfl
  have hvalid : group.trimmed.entries.all (fun entry => validKey entry.1) = true := by
    rw [List.all_eq_true]
    intro entry hentry
    obtain ⟨written, hwritten, rfl⟩ := List.mem_map.mp hentry
    exact key_valid (hkeys written hwritten)
  unfold Group.valid
  rw [hvalid, hentries, decide_eq_true hnodup]
  show (validName group.name && true && true) = true
  rw [hname]
  rfl

theorem Group.Writable.unbroken {group : Group (List Char)} (h : group.Writable) :
    ∀ line ∈ group.lines, '\n' ∉ line := by
  obtain ⟨hname, hkeys, -, hvalues⟩ := h
  intro line hline
  obtain rfl | hline := List.mem_cons.mp hline
  · have hbreak : '\n' ∉ group.name := by
      intro hmem
      have hprintable := List.all_eq_true.mp hname _ hmem
      exact absurd hprintable (by decide)
    simpa using hbreak
  · obtain ⟨entry, hentry, rfl⟩ := List.mem_map.mp hline
    have hkey : '\n' ∉ entry.1 := by
      intro hmem
      have hall := List.all_eq_true.mp (Bool.and_eq_true_iff.mp (hkeys entry hentry)).2 _ hmem
      exact absurd hall (by decide)
    have hvalue := hvalues entry hentry
    simp [hkey, hvalue]

/-- Groups and keys come back, whatever the values are. -/
theorem parse_lines (hwritable : ∀ group ∈ first :: others, group.Writable)
    (hnames : ((first :: others).map (·.name)).Nodup) :
    parse (joinLines '\n' (fileLines first others)) =
      some ((first :: others).map Group.trimmed) := by
  have hunbroken : ∀ line ∈ fileLines first others, '\n' ∉ line := by
    intro line hline
    obtain hline | hline := List.mem_append.mp hline
    · exact (hwritable first List.mem_cons_self).unbroken line hline
    · obtain ⟨group, hgroup, hline⟩ := List.mem_flatMap.mp hline
      obtain rfl | hline := List.mem_cons.mp hline
      · exact List.not_mem_nil
      · exact (hwritable group (List.mem_cons_of_mem _ hgroup)).unbroken line hline
  have hvalid : ((first :: others).map Group.trimmed).all Group.valid = true := by
    rw [List.all_eq_true]
    intro group hgroup
    obtain ⟨written, hwritten, rfl⟩ := List.mem_map.mp hgroup
    exact (hwritable written hwritten).valid
  have hnames : (((first :: others).map Group.trimmed).map (·.name)).Nodup := by
    rw [List.map_map]
    exact hnames
  unfold parse
  rw [split_join_whole hunbroken, groups_from_file fun group hgroup => (hwritable group hgroup).2.1]
  dsimp only
  rw [hvalid, decide_eq_true hnames]
  rfl

/-- The values of a list are read one by one. -/
theorem map_values_iff {σ α β : Type} (f : α → Option β) (written : σ → α) (meant : σ → β)
    (slots : List σ) : (slots.map written).mapM f = some (slots.map meant) ↔
      ∀ slot ∈ slots, f (written slot) = some (meant slot) := by
  induction slots with
  | nil => exact iff_of_true rfl nofun
  | cons slot slots ih =>
      rw [List.map_cons, List.mapM_cons, List.forall_mem_cons, ← ih]
      cases hslot : f (written slot) with
      | none =>
          refine iff_of_false ?_ fun h => ?_
          · exact fun h => by cases h
          · cases h.1
      | some value =>
          cases hrest : (slots.map written).mapM f with
          | none =>
              refine iff_of_false ?_ fun h => ?_
              · exact fun h => by cases h
              · cases h.2
          | some values =>
              show some (value :: values) = some (meant slot :: slots.map meant) ↔ _
              rw [Option.some_inj, Option.some_inj, Option.some_inj, List.cons.injEq]

/-- What a file is meant to say: each key has the text that is written and the value meant. -/
abbrev Meaning := Group (List Char × Value)

theorem typed_meant_iff (codes : Char → Option (List (List Char))) (group : Meaning) :
    (group.map Prod.fst).trimmed.typed codes = some (group.map Prod.snd) ↔
      ∀ entry ∈ group.entries,
        valueOf codes (entry.2.1.dropWhile (· = ' ')) (kindOf entry.1) = some entry.2.2 := by
  have hwritten : (group.map Prod.fst).trimmed.entries =
      group.entries.map fun entry => (entry.1, entry.2.1.dropWhile (· = ' ')) := by
    show (group.entries.map _).map _ = _
    rw [List.map_map]
    rfl
  have hentry : ∀ entry : List Char × List Char × Value,
      ((valueOf codes (entry.2.1.dropWhile (· = ' ')) (kindOf entry.1)).map fun value =>
        (entry.1, value)) = some (entry.1, entry.2.2) ↔
      valueOf codes (entry.2.1.dropWhile (· = ' ')) (kindOf entry.1) = some entry.2.2 := by
    intro entry
    rw [Option.map_eq_some_iff]
    constructor
    · intro h
      obtain ⟨value, hvalue, heq⟩ := h
      rw [hvalue, (Prod.mk.inj heq).2]
    · exact fun h => ⟨_, h, rfl⟩
  have hvalues := map_values_iff
    (fun entry : List Char × List Char =>
      (valueOf codes entry.2 (kindOf entry.1)).map fun value => (entry.1, value))
    (fun entry : List Char × List Char × Value => (entry.1, entry.2.1.dropWhile (· = ' ')))
    (fun entry => (entry.1, entry.2.2)) group.entries
  simp only [hentry] at hvalues
  rw [← hvalues, Group.typed, hwritten, Option.map_eq_some_iff]
  constructor
  · intro h
    obtain ⟨entries, hentries, heq⟩ := h
    rw [hentries, (Group.mk.inj heq).2]
  · exact fun h => ⟨_, h, rfl⟩

section Meanings

variable {codes : Char → Option (List (List Char))} {first : Meaning} {others : List Meaning}

/-- What is written is parsed. -/
theorem parse_written (hwritable : ∀ group ∈ first :: others, (group.map Prod.fst).Writable)
    (hnames : ((first :: others).map (·.name)).Nodup) :
    parse (joinLines '\n' (fileLines (first.map Prod.fst) (others.map (·.map Prod.fst)))) =
      some ((first :: others).map fun group => (group.map Prod.fst).trimmed) := by
  rw [parse_lines, List.map_cons, List.map_map, List.map_cons]
  · rfl
  · intro group hgroup
    obtain rfl | hgroup := List.mem_cons.mp hgroup
    · exact hwritable first List.mem_cons_self
    · obtain ⟨meaning, hmeaning, rfl⟩ := List.mem_map.mp hgroup
      exact hwritable meaning (List.mem_cons_of_mem _ hmeaning)
  · rw [List.map_cons, List.map_map]
    exact hnames

/-- No value changes the outline of a file. -/
theorem parse_outline (hwritable : ∀ group ∈ first :: others, (group.map Prod.fst).Writable)
    (hnames : ((first :: others).map (·.name)).Nodup) :
    (parse (joinLines '\n' (fileLines (first.map Prod.fst)
        (others.map (·.map Prod.fst))))).map (·.map Group.outline) =
      some (((first :: others).map (·.map Prod.snd)).map Group.outline) := by
  rw [parse_written hwritable hnames, Option.map_some, List.map_map, List.map_map]
  refine congrArg some (List.map_congr_left fun group _ => ?_)
  show ((group.map Prod.fst).map _).outline = (group.map Prod.snd).outline
  rw [outline_map, outline_map, outline_map]

/-- A file says what it is meant to say exactly if each of its values does. -/
theorem read_meant_iff (hwritable : ∀ group ∈ first :: others, (group.map Prod.fst).Writable)
    (hnames : ((first :: others).map (·.name)).Nodup) :
    read codes (joinLines '\n' (fileLines (first.map Prod.fst) (others.map (·.map Prod.fst)))) =
        some ((first :: others).map (·.map Prod.snd)) ↔
      ∀ group ∈ first :: others, ∀ entry ∈ group.entries,
        valueOf codes (entry.2.1.dropWhile (· = ' ')) (kindOf entry.1) = some entry.2.2 := by
  unfold read
  rw [parse_written hwritable hnames, Option.bind_some, map_values_iff]
  exact forall₂_congr fun group _ => typed_meant_iff codes group

end Meanings

/-! ## Lists and commands -/

/-- A text of a list up to its semicolon. -/
theorem texts_from_piece {piece : List Char} (hescape : '\\' ∉ piece) (hplain : ';' ∉ piece)
    (read rest : List Char) : textsFrom read (piece ++ ';' :: rest) =
      if rest = [] then some [read ++ piece]
      else (textsFrom [] rest).map ((read ++ piece) :: ·) := by
  induction piece generalizing read with
  | nil =>
      cases rest with
      | nil => simp [textsFrom]
      | cons next rest =>
          rw [List.nil_append, textsFrom, if_neg (by decide), if_pos rfl, List.append_nil,
            if_neg (List.cons_ne_nil _ _)]
  | cons c piece ih =>
      rw [List.mem_cons, not_or] at hescape hplain
      have hread := ih hescape.2 hplain.2 (read ++ [c])
      obtain ⟨next, more, hmore⟩ : ∃ next more, piece ++ ';' :: rest = next :: more := by
        cases piece with
        | nil => exact ⟨';', rest, rfl⟩
        | cons next piece => exact ⟨next, piece ++ ';' :: rest, rfl⟩
      rw [hmore, List.append_assoc, List.singleton_append] at hread
      rw [List.cons_append, hmore, textsFrom, if_neg (Ne.symm hescape.1),
        if_neg (Ne.symm hplain.1), hread]

/-- Texts with a semicolon behind each are a list. -/
theorem texts_from_joined {pieces : List (List Char)}
    (hplain : ∀ piece ∈ pieces, '\\' ∉ piece ∧ ';' ∉ piece) :
    textsFrom [] (joinLines ';' pieces) = some pieces := by
  induction pieces with
  | nil => rfl
  | cons piece pieces ih =>
      have hrest := ih fun other hother => hplain other (List.mem_cons_of_mem _ hother)
      obtain ⟨hescape, hpiece⟩ := hplain piece List.mem_cons_self
      rw [join_lines_cons, texts_from_piece hescape hpiece, hrest]
      cases pieces with
      | nil => rfl
      | cons other pieces =>
          rw [if_neg (by simp [joinLines])]
          rfl

/-- A separator between texts and one behind them is a separator behind each. -/
theorem intercalate_terminated (separator : Char) {pieces : List (List Char)}
    (hpieces : pieces ≠ []) :
    [separator].intercalate pieces ++ [separator] = joinLines separator pieces := by
  induction pieces with
  | nil => exact absurd rfl hpieces
  | cons piece pieces ih =>
      cases pieces with
      | nil => simp [joinLines]
      | cons other pieces =>
          rw [List.intercalate_cons_cons, List.append_assoc, List.append_assoc,
            ih (List.cons_ne_nil _ _), join_lines_cons separator piece]
          rfl

/-- The last argument, when it has nothing that is reserved. -/
theorem read_plain_last {text : List Char} (hplain : ∀ c ∈ text, reserved c = false)
    (read : List Char) : wordsFrom (.plain read) text = some [⟨read ++ text, false⟩] := by
  induction text generalizing read with
  | nil => rw [List.append_nil, wordsFrom]
  | cons c text ih =>
      have hc := hplain c List.mem_cons_self
      rw [wordsFrom, if_neg (not_space hc), if_neg (by rw [hc]; exact Bool.false_ne_true),
        ih (fun d hd => hplain d (List.mem_cons_of_mem _ hd)), List.append_assoc]
      rfl

/-- An argument that begins without a quote. -/
theorem words_plain {c : Char} (hc : reserved c = false) (text : List Char) :
    wordsFrom .between (c :: text) = wordsFrom (.plain [c]) text := by
  rw [wordsFrom, if_neg (not_space hc), if_neg (not_quote hc),
    if_neg (by rw [hc]; exact Bool.false_ne_true)]

/-- A plain argument stands for itself. -/
theorem expand_plain (codes : Char → Option (List (List Char))) {text : List Char}
    (hplain : '%' ∉ text) : expand codes ⟨text, false⟩ = some [text] := by
  unfold expand
  dsimp only
  rw [if_neg Bool.false_ne_true]
  split
  · exact absurd List.mem_cons_self hplain
  · rw [unpercent_unchanged hplain]
    rfl

/-- A plain program with one argument. -/
theorem command_argument (codes : Char → Option (List (List Char))) {program argument : List Char}
    (hprogram : ∀ c ∈ program, plain c = true) (hnames : namesProgram program = true)
    (hempty : program ≠ []) (hargument : ∀ c ∈ argument, reserved c = false)
    (hargument' : argument ≠ []) :
    command codes (program ++ ' ' :: argument) =
      (expand codes ⟨argument, false⟩).map (program :: ·) := by
  obtain ⟨first, path, rfl⟩ := List.exists_cons_of_ne_nil hempty
  obtain ⟨c, text, rfl⟩ := List.exists_cons_of_ne_nil hargument'
  have hfirst := not_reserved (hprogram first List.mem_cons_self)
  have hescapes : '\\' ∉ first :: path ++ ' ' :: c :: text := by
    intro hmem
    obtain hmem | hmem := List.mem_append.mp hmem
    · exact absurd (hprogram _ hmem) (by decide)
    · obtain hmem | hmem := List.mem_cons.mp hmem
      · cases hmem
      · exact absurd (hargument _ hmem) (by decide)
  have hwords : wordsFrom .between (first :: path ++ ' ' :: c :: text) =
      some [⟨first :: path, false⟩, ⟨c :: text, false⟩] := by
    rw [List.cons_append, words_plain hfirst,
      read_plain path (fun d hd => not_reserved (hprogram d (List.mem_cons_of_mem _ hd))),
      words_plain (hargument c List.mem_cons_self),
      read_plain_last fun d hd => hargument d (List.mem_cons_of_mem _ hd)]
    rfl
  have hpercent : '%' ∉ first :: path := fun hmem => absurd (hprogram _ hmem) (by decide)
  unfold command
  rw [unescape_unchanged hescapes, Option.bind_eq_bind, Option.bind_some, hwords]
  show (expandAll codes [⟨first :: path, false⟩, ⟨c :: text, false⟩]).bind _ = _
  rw [expandAll, expand_plain codes hpercent, Option.bind_some, expandAll]
  cases expand codes ⟨c :: text, false⟩ with
  | none => rfl
  | some arguments =>
      show (if namesProgram (first :: path) then
        some ((first :: path) :: (arguments ++ [])) else none) = _
      rw [if_pos hnames, List.append_nil]
      rfl

end Foundations.DesktopEntry
