import Mathlib.Data.List.DropRight

/-!
# Desktop entries

What a desktop runs for a group of a freedesktop desktop entry: the value of its `Exec` key, its
escapes, its arguments and the field codes that stand alone. `command_plain` is the round trip for
a program that needs no quoting, `command_program_plain` says that no other program is what an
unquoted `Exec` line starts.
-/

namespace Foundations.DesktopEntry

/-! ## Lines -/

/-- A line: a group header, a key with its value, or neither. -/
inductive Line where
  | group (name : List Char)
  | pair (key value : List Char)
  | other

/-- A key without the blanks before its equals sign and a value without the blanks after it. -/
def pairOf (line : List Char) : Line :=
  match line.dropWhile (· ≠ '=') with
  | [] => .other
  | _ :: value =>
      .pair ((line.takeWhile (· ≠ '=')).rdropWhile (· = ' ')) (value.dropWhile (· = ' '))

/-- What a line says. -/
def lineOf : List Char → Line
  | [] => .other
  | first :: rest =>
      if first = '[' then
        if rest.getLast? = some ']' then .group rest.dropLast else .other
      else if first = '#' then .other
      else pairOf (first :: rest)

/-- The first value of a key among the lines of a group. -/
def valueIn (group key : List Char) : Bool → List (List Char) → Option (List Char)
  | _, [] => none
  | inside, line :: rest =>
      match lineOf line with
      | .group name => valueIn group key (name = group) rest
      | .pair name value =>
          if inside = true ∧ name = key then some value else valueIn group key inside rest
      | .other => valueIn group key inside rest

/-! ## Values -/

/-- The character of an escape. -/
def escaped (c : Char) : Option Char :=
  if c = 's' then some ' '
  else if c = 'n' then some '\n'
  else if c = 't' then some '\t'
  else if c = 'r' then some '\r'
  else if c = '\\' then some '\\'
  else none

/-- The text of a value. -/
def unescape : List Char → Option (List Char)
  | [] => some []
  | [c] => if c = '\\' then none else some [c]
  | c :: next :: rest =>
      if c = '\\' then (escaped next).bind fun d => (unescape rest).map (d :: ·)
      else (unescape (next :: rest)).map (c :: ·)

/-! ## Arguments -/

/-- The characters that an argument has only between quotes. -/
def reserved (c : Char) : Bool :=
  " \t\n\"'\\><~|&;$*?#()`".toList.contains c

/-- An argument and whether it stood between quotes. -/
structure Word where
  text : List Char
  quoted : Bool

/-- Where a command line is being read. -/
inductive Cursor where
  | between
  | plain (read : List Char)
  | quoted (read : List Char)
  | escaping (read : List Char)
  | closed (read : List Char)

/-- The rest of the arguments of a command line. -/
def wordsFrom : Cursor → List Char → Option (List Word)
  | .between, [] => some []
  | .plain read, [] => some [⟨read, false⟩]
  | .closed read, [] => some [⟨read, true⟩]
  | .quoted _, [] => none
  | .escaping _, [] => none
  | .between, c :: rest =>
      if c = ' ' then wordsFrom .between rest
      else if c = '"' then wordsFrom (.quoted []) rest
      else if reserved c then none
      else wordsFrom (.plain [c]) rest
  | .plain read, c :: rest =>
      if c = ' ' then (wordsFrom .between rest).map (⟨read, false⟩ :: ·)
      else if reserved c then none
      else wordsFrom (.plain (read ++ [c])) rest
  | .quoted read, c :: rest =>
      if c = '"' then wordsFrom (.closed read) rest
      else if c = '\\' then wordsFrom (.escaping read) rest
      else if c = '$' ∨ c = '`' then none
      else wordsFrom (.quoted (read ++ [c])) rest
  | .escaping read, c :: rest =>
      if c = '"' ∨ c = '`' ∨ c = '$' ∨ c = '\\' then wordsFrom (.quoted (read ++ [c])) rest
      else none
  | .closed read, c :: rest =>
      if c = ' ' then (wordsFrom .between rest).map (⟨read, true⟩ :: ·) else none

/-- An argument with its doubled percent signs; no field code is expanded inside an argument. -/
def unpercent : List Char → Option (List Char)
  | [] => some []
  | [c] => if c = '%' then none else some [c]
  | c :: next :: rest =>
      if c = '%' then if next = '%' then (unpercent rest).map ('%' :: ·) else none
      else (unpercent (next :: rest)).map (c :: ·)

/-- The arguments that an argument stands for, with what the field codes that stand alone are. -/
def expand (codes : Char → Option (List (List Char))) (word : Word) :
    Option (List (List Char)) :=
  if word.quoted then if word.text.contains '%' then none else some [word.text]
  else
    match word.text with
    | ['%', code] =>
        if code = '%' then some [['%']] else codes code
    | text => (unpercent text).map fun argument => [argument]

/-- The arguments that a command line stands for. -/
def expandAll (codes : Char → Option (List (List Char))) : List Word → Option (List (List Char))
  | [] => some []
  | word :: rest =>
      (expand codes word).bind fun arguments => (expandAll codes rest).map (arguments ++ ·)

/-- A program is named by its full path or without a path, and never with an equals sign. -/
def namesProgram (program : List Char) : Bool :=
  !program.contains '=' && (!program.contains '/' || program.head? == some '/')

/-- What the value of an `Exec` key runs. -/
def command (codes : Char → Option (List (List Char))) (value : List Char) :
    Option (List (List Char)) := do
  let text ← unescape value
  let words ← wordsFrom .between text
  match ← expandAll codes words with
  | [] => none
  | program :: rest => if namesProgram program then some (program :: rest) else none

/-- What a desktop runs for a group of an entry. -/
def started (codes : Char → Option (List (List Char))) (group : List Char)
    (lines : List (List Char)) : Option (List (List Char)) :=
  (valueIn group "Exec".toList false lines).bind (command codes)

/-! ## Keys -/

/-- The texts that are keys. -/
def isKey (key : List Char) : Bool := key != [] && key.all fun c => c.isAlphanum || c == '-'

theorem key_char {key : List Char} (h : isKey key = true) {c : Char} (hc : c ∈ key) :
    c ≠ '=' ∧ c ≠ ' ' ∧ c ≠ '[' ∧ c ≠ '#' := by
  have hall := List.all_eq_true.mp (Bool.and_eq_true_iff.mp h).2 c hc
  refine ⟨?_, ?_, ?_, ?_⟩
  · rintro rfl
    cases hall
  · rintro rfl
    cases hall
  · rintro rfl
    cases hall
  · rintro rfl
    cases hall

/-- A key with its value. -/
theorem line_of_pair {key : List Char} (h : isKey key = true) (value : List Char) :
    lineOf (key ++ '=' :: value) = .pair key (value.dropWhile (· = ' ')) := by
  have hequals : ∀ c ∈ key, decide (c ≠ '=') = true :=
    fun c hc => decide_eq_true (key_char h hc).1
  cases hkey : key with
  | nil =>
      rw [hkey] at h
      cases h
  | cons first rest =>
      have hfirst : first ∈ key := hkey ▸ List.mem_cons_self
      obtain ⟨-, -, hgroup, hcomment⟩ := key_char h hfirst
      rw [List.cons_append, lineOf, if_neg hgroup, if_neg hcomment, ← List.cons_append, ← hkey]
      have hblank : key.rdropWhile (· = ' ') = key := by
        rw [List.rdropWhile_eq_self_iff]
        intro hne hlast
        exact (key_char h (List.getLast_mem hne)).2.1 (of_decide_eq_true hlast)
      unfold pairOf
      rw [List.dropWhile_append_of_pos hequals, List.takeWhile_append_of_pos hequals]
      show Line.pair ((key ++ []).rdropWhile (· = ' ')) (value.dropWhile (· = ' ')) = _
      rw [List.append_nil, hblank]

theorem line_of_group (name : List Char) : lineOf ('[' :: (name ++ [']'])) = .group name := by
  rw [lineOf, if_pos rfl, List.getLast?_concat, if_pos rfl, List.dropLast_concat]

/-- The first line of a group with the key has its value. -/
theorem value_found {group key : List Char} (hkey : isKey key = true)
    {before : List (List Char × List Char)}
    (hbefore : ∀ pair ∈ before, isKey pair.1 = true ∧ pair.1 ≠ key) (value : List Char)
    (rest : List (List Char)) :
    valueIn group key false (('[' :: (group ++ [']'])) ::
      (before.map fun pair => pair.1 ++ '=' :: pair.2) ++ (key ++ '=' :: value) :: rest) =
      some (value.dropWhile (· = ' ')) := by
  have hinside : ∀ before : List (List Char × List Char),
      (∀ pair ∈ before, isKey pair.1 = true ∧ pair.1 ≠ key) →
      valueIn group key true ((before.map fun pair => pair.1 ++ '=' :: pair.2) ++
        (key ++ '=' :: value) :: rest) = some (value.dropWhile (· = ' ')) := by
    intro before
    induction before with
    | nil =>
        intro _
        rw [List.map_nil, List.nil_append, valueIn, line_of_pair hkey]
        exact if_pos ⟨rfl, rfl⟩
    | cons pair before ih =>
        intro hpairs
        obtain ⟨hpair, hne⟩ := hpairs pair List.mem_cons_self
        rw [List.map_cons, List.cons_append, valueIn, line_of_pair hpair]
        dsimp only
        rw [if_neg fun h => hne h.2]
        exact ih fun other hother => hpairs other (List.mem_cons_of_mem _ hother)
  rw [List.cons_append, valueIn, line_of_group]
  dsimp only
  rw [decide_eq_true rfl]
  exact hinside before hbefore

/-! ## Plain programs -/

/-- A character that stands for itself in a program of an `Exec` line. -/
def plain (c : Char) : Bool := !reserved c && c != '%' && c != '='

theorem not_reserved {c : Char} (h : plain c = true) : reserved c = false := by
  simp [plain] at h
  exact h.1.1

theorem not_space {c : Char} (h : reserved c = false) : c ≠ ' ' := by
  rintro rfl
  revert h
  decide

theorem not_backslash {c : Char} (h : reserved c = false) : c ≠ '\\' := by
  rintro rfl
  revert h
  decide

theorem not_quote {c : Char} (h : reserved c = false) : c ≠ '"' := by
  rintro rfl
  revert h
  decide

theorem unescape_unchanged : ∀ {text : List Char}, '\\' ∉ text → unescape text = some text
  | [], _ => rfl
  | [c], h => by
      have hc : c ≠ '\\' := fun heq => h (heq ▸ List.mem_cons_self)
      rw [unescape, if_neg hc]
  | c :: next :: rest, h => by
      have hc : c ≠ '\\' := fun heq => h (heq ▸ List.mem_cons_self)
      have hrest : '\\' ∉ next :: rest := fun hmem => h (List.mem_cons_of_mem _ hmem)
      rw [unescape, if_neg hc, unescape_unchanged hrest]
      rfl

/-- A text keeps its first character if that is no escape. -/
theorem unescape_head {c : Char} {rest text : List Char} (hc : c ≠ '\\')
    (h : unescape (c :: rest) = some text) : ∃ more, text = c :: more := by
  cases rest with
  | nil =>
      rw [unescape, if_neg hc] at h
      cases h
      exact ⟨[], rfl⟩
  | cons next rest =>
      rw [unescape, if_neg hc] at h
      obtain ⟨more, -, rfl⟩ := Option.map_eq_some_iff.mp h
      exact ⟨more, rfl⟩

/-- An argument that has begun without a quote has nothing that is reserved. -/
theorem plain_word {text read : List Char} {words : List Word}
    (h : wordsFrom (.plain read) text = some words) (hread : ∀ c ∈ read, reserved c = false) :
    ∃ word rest, words = word :: rest ∧ word.quoted = false ∧
      (∃ more, word.text = read ++ more) ∧ ∀ c ∈ word.text, reserved c = false := by
  induction text generalizing read with
  | nil =>
      cases h
      exact ⟨_, _, rfl, rfl, ⟨[], (List.append_nil _).symm⟩, hread⟩
  | cons c text ih =>
      rw [wordsFrom] at h
      split at h
      · obtain ⟨others, -, rfl⟩ := Option.map_eq_some_iff.mp h
        exact ⟨_, _, rfl, rfl, ⟨[], (List.append_nil _).symm⟩, hread⟩
      · split at h
        · cases h
        · rename_i hreserved
          have hmore : ∀ d ∈ read ++ [c], reserved d = false := by
            intro d hd
            obtain hd | hd := List.mem_append.mp hd
            · exact hread d hd
            · rw [List.mem_singleton.mp hd]
              exact Bool.eq_false_iff.mpr hreserved
          obtain ⟨word, rest, hwords, hquoted, ⟨more, htext⟩, hplain⟩ := ih h hmore
          refine ⟨word, rest, hwords, hquoted, ⟨c :: more, ?_⟩, hplain⟩
          rw [htext, List.append_assoc]
          rfl

/-- An argument without anything reserved is read up to the next blank. -/
theorem read_plain (text : List Char) (hplain : ∀ c ∈ text, reserved c = false)
    (read rest : List Char) : wordsFrom (.plain read) (text ++ ' ' :: rest) =
      (wordsFrom .between rest).map (⟨read ++ text, false⟩ :: ·) := by
  induction text generalizing read with
  | nil => rw [List.nil_append, wordsFrom, if_pos rfl, List.append_nil]
  | cons c text ih =>
      have hc := hplain c List.mem_cons_self
      rw [List.cons_append, wordsFrom, if_neg (not_space hc),
        if_neg (by rw [hc]; exact Bool.false_ne_true),
        ih (fun d hd => hplain d (List.mem_cons_of_mem _ hd)), List.append_assoc]
      rfl

/-- Percent signs make an argument shorter. -/
theorem unpercent_length : ∀ {text argument : List Char}, unpercent text = some argument →
    argument.length ≤ text.length ∧ ('%' ∈ text → argument.length < text.length)
  | [], argument, h => by
      cases h
      exact ⟨Nat.le_refl 0, nofun⟩
  | [c], argument, h => by
      rw [unpercent] at h
      split at h
      · cases h
      · rename_i hc
        cases h
        refine ⟨Nat.le_refl 1, fun hmem => ?_⟩
        exact absurd (List.mem_singleton.mp hmem).symm hc
  | c :: next :: rest, argument, h => by
      rw [unpercent] at h
      split at h
      · split at h
        · obtain ⟨more, hmore, rfl⟩ := Option.map_eq_some_iff.mp h
          have hle := (unpercent_length hmore).1
          simp only [List.length_cons]
          omega
        · cases h
      · rename_i hc
        obtain ⟨more, hmore, rfl⟩ := Option.map_eq_some_iff.mp h
        obtain ⟨hle, hlt⟩ := unpercent_length hmore
        refine ⟨Nat.succ_le_succ hle, fun hmem => Nat.succ_lt_succ (hlt ?_)⟩
        obtain hmem | hmem := List.mem_cons.mp hmem
        · exact absurd hmem.symm hc
        · exact hmem

/-- What percent signs leave comes from the argument. -/
theorem mem_of_unpercent : ∀ {text argument : List Char}, unpercent text = some argument →
    ∀ c ∈ argument, c ∈ text
  | [], argument, h => by
      cases h
      exact fun c hc => hc
  | [c], argument, h => by
      rw [unpercent] at h
      split at h
      · cases h
      · cases h
        exact fun c hc => hc
  | c :: next :: rest, argument, h => by
      rw [unpercent] at h
      split at h
      · rename_i hc
        split at h
        · obtain ⟨more, hmore, rfl⟩ := Option.map_eq_some_iff.mp h
          intro d hd
          obtain rfl | hd := List.mem_cons.mp hd
          · exact hc ▸ List.mem_cons_self
          · exact List.mem_cons_of_mem _ (List.mem_cons_of_mem _ (mem_of_unpercent hmore d hd))
        · cases h
      · obtain ⟨more, hmore, rfl⟩ := Option.map_eq_some_iff.mp h
        intro d hd
        obtain rfl | hd := List.mem_cons.mp hd
        · exact List.mem_cons_self
        · exact List.mem_cons_of_mem _ (mem_of_unpercent hmore d hd)

theorem unpercent_unchanged : ∀ {text : List Char}, '%' ∉ text → unpercent text = some text
  | [], _ => rfl
  | [c], h => by
      have hc : c ≠ '%' := fun heq => h (heq ▸ List.mem_cons_self)
      rw [unpercent, if_neg hc]
  | c :: next :: rest, h => by
      have hc : c ≠ '%' := fun heq => h (heq ▸ List.mem_cons_self)
      have hrest : '%' ∉ next :: rest := fun hmem => h (List.mem_cons_of_mem _ hmem)
      rw [unpercent, if_neg hc, unpercent_unchanged hrest]
      rfl

variable {codes : Char → Option (List (List Char))} {program value : List Char}
  {arguments : List (List Char)}

theorem expand_path {word : Word} {more : List Char} {expanded : List (List Char)}
    (hquoted : word.quoted = false) (htext : word.text = '/' :: more)
    (h : expand codes word = some expanded) :
    ∃ argument, unpercent word.text = some argument ∧ expanded = [argument] := by
  obtain ⟨text, quoted⟩ := word
  subst htext hquoted
  obtain ⟨argument, hargument, rfl⟩ := Option.map_eq_some_iff.mp h
  exact ⟨argument, hargument, rfl⟩

/-- A command line that begins with a path, from its value to its program. -/
theorem command_path {rest : List Char}
    (h : command codes ('/' :: rest) = some (program :: arguments)) :
    ∃ text word words, unescape ('/' :: rest) = some text ∧
      wordsFrom .between text = some (word :: words) ∧ word.quoted = false ∧
      (∃ more, word.text = '/' :: more) ∧ (∀ c ∈ word.text, reserved c = false) ∧
      unpercent word.text = some program := by
  obtain ⟨text, htext, h⟩ := Option.bind_eq_some_iff.mp h
  obtain ⟨words, hwords, h⟩ := Option.bind_eq_some_iff.mp h
  obtain ⟨expanded, hexpanded, h⟩ := Option.bind_eq_some_iff.mp h
  obtain ⟨more, rfl⟩ := unescape_head (by decide) htext
  have hplain : wordsFrom (.plain ['/']) more = some words := hwords
  have hslash : ∀ c ∈ ['/'], reserved c = false := List.forall_mem_singleton.mpr rfl
  obtain ⟨word, others, rfl, hquoted, ⟨tail, hword⟩, hunreserved⟩ := plain_word hplain hslash
  obtain ⟨first, hfirst, hothers⟩ := Option.bind_eq_some_iff.mp hexpanded
  obtain ⟨remaining, -, rfl⟩ := Option.map_eq_some_iff.mp hothers
  obtain ⟨argument, hargument, rfl⟩ := expand_path hquoted hword hfirst
  have h : (if namesProgram argument then some (argument :: remaining) else none) =
      some (program :: arguments) := h
  split at h
  · obtain ⟨rfl, -⟩ := List.cons.inj (Option.some.inj h)
    exact ⟨'/' :: more, word, others, htext, hwords, hquoted, ⟨tail, hword⟩, hunreserved,
      hargument⟩
  · cases h

theorem command_names (h : command codes value = some (program :: arguments)) :
    namesProgram program = true := by
  obtain ⟨_, -, h⟩ := Option.bind_eq_some_iff.mp h
  obtain ⟨_, -, h⟩ := Option.bind_eq_some_iff.mp h
  obtain ⟨expanded, -, h⟩ := Option.bind_eq_some_iff.mp h
  cases expanded with
  | nil => cases h
  | cons first rest =>
      have h : (if namesProgram first then some (first :: rest) else none) =
          some (program :: arguments) := h
      split at h
      · rename_i hnames
        obtain ⟨rfl, -⟩ := List.cons.inj (Option.some.inj h)
        exact hnames
      · cases h

/-- The program of a command line that begins with a path has nothing that is reserved. -/
theorem command_unreserved {rest : List Char}
    (h : command codes ('/' :: rest) = some (program :: arguments)) :
    ∀ c ∈ program, reserved c = false := by
  obtain ⟨_, word, _, -, -, -, -, hunreserved, hprogram⟩ := command_path h
  exact fun c hc => hunreserved c (mem_of_unpercent hprogram c hc)

/-- Only a plain program is what a command line starts that spells it out. -/
theorem command_program_plain {rest : List Char} (hhead : program.head? = some '/')
    (h : command codes (program ++ ' ' :: rest) = some (program :: arguments))
    (hrest : '\\' ∉ rest) : ∀ c ∈ program, plain c = true := by
  obtain ⟨path, rfl⟩ : ∃ path, program = '/' :: path := by
    cases program with
    | nil => cases hhead
    | cons first path =>
        obtain rfl := Option.some.inj hhead
        exact ⟨path, rfl⟩
  have hunreserved := command_unreserved h
  have hnames := command_names h
  obtain ⟨text, word, words, htext, hwords, -, -, -, hprogram⟩ := command_path h
  have hescapes : '\\' ∉ '/' :: path ++ ' ' :: rest := by
    intro hmem
    obtain hmem | hmem := List.mem_append.mp hmem
    · exact not_backslash (hunreserved _ hmem) rfl
    · obtain hmem | hmem := List.mem_cons.mp hmem
      · cases hmem
      · exact hrest hmem
  obtain rfl := Option.some.inj ((unescape_unchanged hescapes).symm.trans htext)
  have hread : wordsFrom (.plain ['/']) (path ++ ' ' :: rest) = some (word :: words) := hwords
  rw [read_plain path (fun c hc => hunreserved c (List.mem_cons_of_mem _ hc))] at hread
  obtain ⟨others, -, hcons⟩ := Option.map_eq_some_iff.mp hread
  obtain ⟨rfl, -⟩ := List.cons.inj hcons
  have hpercent : '%' ∉ '/' :: path := fun hmem =>
    Nat.lt_irrefl _ ((unpercent_length hprogram).2 hmem)
  have hequals : '=' ∉ '/' :: path := by
    unfold namesProgram at hnames
    simpa using (Bool.and_eq_true_iff.mp hnames).1
  intro c hc
  have hc' := hunreserved c hc
  simp only [plain, hc', Bool.not_false, Bool.true_and, Bool.and_eq_true, bne_iff_ne]
  exact ⟨fun heq => hpercent (heq ▸ hc), fun heq => hequals (heq ▸ hc)⟩

/-- A plain program with a field code is started with what the field code is. -/
theorem command_plain {code : Char} (hhead : program.head? = some '/')
    (hplain : ∀ c ∈ program, plain c = true) (hcode : plain code = true)
    (harguments : codes code = some arguments) :
    command codes (program ++ [' ', '%', code]) = some (program :: arguments) := by
  obtain ⟨path, rfl⟩ : ∃ path, program = '/' :: path := by
    cases program with
    | nil => cases hhead
    | cons first path =>
        obtain rfl := Option.some.inj hhead
        exact ⟨path, rfl⟩
  have hescapes : '\\' ∉ '/' :: path ++ [' ', '%', code] := by
    intro hmem
    obtain hmem | hmem := List.mem_append.mp hmem
    · exact not_backslash (not_reserved (hplain _ hmem)) rfl
    · have hne := not_backslash (not_reserved hcode)
      simp only [List.mem_cons, List.not_mem_nil, or_false] at hmem
      obtain hmem | hmem | hmem := hmem
      · cases hmem
      · cases hmem
      · exact hne hmem.symm
  have hlast : wordsFrom (.plain ['%']) [code] = some [⟨['%', code], false⟩] := by
    rw [wordsFrom, if_neg (not_space (not_reserved hcode)),
      if_neg (by rw [not_reserved hcode]; exact Bool.false_ne_true)]
    rfl
  have hfield : wordsFrom .between ['%', code] = some [⟨['%', code], false⟩] := hlast
  have hwords : wordsFrom .between ('/' :: path ++ [' ', '%', code]) =
      some [⟨'/' :: path, false⟩, ⟨['%', code], false⟩] := by
    show wordsFrom (.plain ['/']) (path ++ ' ' :: ['%', code]) = _
    rw [read_plain path (fun c hc => not_reserved (hplain c (List.mem_cons_of_mem _ hc))), hfield]
    rfl
  have hpercent : '%' ∉ '/' :: path := fun hmem => absurd (hplain _ hmem) (by decide)
  have hprogram : expand codes ⟨'/' :: path, false⟩ = some ['/' :: path] := by
    show (unpercent ('/' :: path)).map (fun argument => [argument]) = _
    rw [unpercent_unchanged hpercent]
    rfl
  have hcodes : expand codes ⟨['%', code], false⟩ = some arguments := by
    have hne : code ≠ '%' := by
      rintro rfl
      exact absurd hcode (by decide)
    show (if code = '%' then some [['%']] else codes code) = _
    rw [if_neg hne, harguments]
  have hnames : namesProgram ('/' :: path) = true := by
    have hequals : '=' ∉ '/' :: path := fun hmem => absurd (hplain _ hmem) (by decide)
    unfold namesProgram
    rw [Bool.and_eq_true_iff]
    exact ⟨by simpa using hequals, by simp⟩
  unfold command
  rw [unescape_unchanged hescapes, Option.bind_eq_bind, Option.bind_some, hwords]
  show (expandAll codes [⟨'/' :: path, false⟩, ⟨['%', code], false⟩]).bind _ = _
  rw [expandAll, hprogram, Option.bind_some, expandAll, hcodes, Option.bind_some, expandAll]
  show (if namesProgram ('/' :: path) then some (('/' :: path) :: (arguments ++ [])) else none) = _
  rw [if_pos hnames, List.append_nil]

end Foundations.DesktopEntry
