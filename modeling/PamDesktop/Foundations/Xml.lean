import PamDesktop.Foundations.Template

/-!
# XML documents

A reader for documents as programs write them: every element holds text or other elements, names are
ASCII, values stand between double quotes, and the references are the five named ones. It takes one
character after the other and yields the tags in their order. `read_document` says that a template
with escaped values in its places reads as the template does, with the values in their places.
-/

namespace Foundations.Xml

/-! ## Characters -/

/-- A character of a document. Line ends are line feeds. -/
def isCharacter (c : Char) : Bool :=
  c == '\t' || c == '\n' || (32 ≤ c.toNat && c.toNat != 0xFFFE && c.toNat != 0xFFFF)

def isBlank (c : Char) : Bool := c == ' ' || c == '\t' || c == '\n'

def isNameStart (c : Char) : Bool := c.isAlpha || c == '_'

def isNameCharacter (c : Char) : Bool :=
  isNameStart c || c.isDigit || c == '-' || c == '.' || c == ':'

/-- The character of a named reference. -/
def entity (name : List Char) : Option Char :=
  if name = ['a', 'm', 'p'] then some '&'
  else if name = ['l', 't'] then some '<'
  else if name = ['g', 't'] then some '>'
  else if name = ['q', 'u', 'o', 't'] then some '"'
  else if name = ['a', 'p', 'o', 's'] then some '\''
  else none

/-- How the symbols of a text take up the characters of a document. -/
class Alphabet (τ : Type) where
  char : Char → τ
  blank : τ → Bool

instance : Alphabet Char := ⟨id, isBlank⟩

instance {ι : Type} : Alphabet (Symbol ι) where
  char := .char
  blank
    | .char c => isBlank c
    | .hole _ => false

/-! ## The reader -/

/-- An element with text in it, or the tag with which one begins or ends that has elements in it. -/
inductive Event (τ : Type) where
  | leaf (name : String) (attributes : List (String × List τ)) (text : List τ)
  | start (name : String) (attributes : List (String × List τ))
  | finish (name : String)
deriving DecidableEq

/-- What the last characters have been the beginning of. -/
inductive Mode (τ : Type) where
  | beginning
  | first
  | content
  | reference (name : List Char)
  | markup
  | instruction (text : List Char)
  | declaration (text : List Char)
  | opening (name : List Char)
  | within
  | key (name : List Char)
  | equals (name : List Char)
  | value (name : List Char) (text : List τ)
  | valueReference (name : List Char) (text : List τ) (reference : List Char)
  | after
  | slash
  | closing (name : List Char)
deriving DecidableEq

/-- What has been read: the tags, the elements that are open, the name and the attributes of the
last tag that began an element, whether only text has followed it so far, and that text. -/
structure State (τ : Type) where
  mode : Mode τ
  events : List (Event τ)
  stack : List String
  name : String
  attributes : List (String × List τ)
  fresh : Bool
  text : List τ
  declared : Bool

def State.initial {τ : Type} : State τ := ⟨.beginning, [], [], "", [], false, [], false⟩

variable {τ : Type} [Alphabet τ]

/-- A symbol of a text or of a value. Outside of the elements there are only blanks. -/
def State.put (state : State τ) (symbol : τ) : Option (State τ) :=
  match state.mode with
  | .content =>
      if state.stack.isEmpty && !Alphabet.blank symbol then none
      else some { state with text := state.text ++ [symbol] }
  | .value name text => some { state with mode := .value name (text ++ [symbol]) }
  | _ => none

/-- The beginning of another element: the one around it holds elements. -/
def State.enter (state : State τ) (c : Char) : Option (State τ) :=
  if state.stack.isEmpty && !state.events.isEmpty then none
  else if state.text.all Alphabet.blank then
    let events :=
      if state.fresh then state.events ++ [.start state.name state.attributes] else state.events
    some { state with mode := .opening [c], events, fresh := false, text := [] }
  else none

/-- The end of the innermost element. -/
def State.leave (state : State τ) (name : String) : Option (State τ) :=
  match state.stack with
  | [] => none
  | innermost :: stack =>
      if name ≠ innermost then none
      else if state.fresh then
        let leaf := .leaf state.name state.attributes state.text
        some { state with
          mode := .content, events := state.events ++ [leaf], stack, fresh := false, text := [] }
      else if state.text.all Alphabet.blank then
        some { state with
          mode := .content, events := state.events ++ [.finish name], stack, text := [] }
      else none

/-- A place where a tag may end. -/
def State.inTag (state : State τ) (c : Char) : Option (State τ) :=
  if c = '>' then
    some { state with mode := .content, stack := state.name :: state.stack, fresh := true }
  else if c = '/' then some { state with mode := .slash }
  else if isBlank c then some { state with mode := .within }
  else none

def State.inContent (state : State τ) (c : Char) : Option (State τ) :=
  if c = '<' then some { state with mode := .markup }
  else if c = '&' then some { state with mode := .reference [] }
  else if c = '>' then none
  else { state with mode := .content }.put (Alphabet.char c)

def State.inMarkup (state : State τ) (c : Char) : Option (State τ) :=
  if c = '/' then some { state with mode := .closing [] }
  else if c = '!' then
    if state.stack.isEmpty && state.events.isEmpty && !state.declared then
      some { state with mode := .declaration [], declared := true }
    else none
  else if isNameStart c then state.enter c
  else none

/-- One character. -/
def State.step (state : State τ) (c : Char) : Option (State τ) :=
  if !isCharacter c then none
  else
    match state.mode with
    | .beginning => if c = '<' then some { state with mode := .first } else state.inContent c
    | .first => if c = '?' then some { state with mode := .instruction [] } else state.inMarkup c
    | .content => state.inContent c
    | .reference name =>
        if c = ';' then
          (entity name).bind fun d => { state with mode := .content }.put (Alphabet.char d)
        else some { state with mode := .reference (name ++ [c]) }
    | .markup => state.inMarkup c
    | .instruction text =>
        if c = '>' then
          if text.take 4 = ['x', 'm', 'l', ' '] ∧ text.getLast? = some '?' then
            some { state with mode := .content }
          else none
        else some { state with mode := .instruction (text ++ [c]) }
    | .declaration text =>
        -- a closing bracket between quotes does not end it
        if c = '>' ∧ text.count '"' % 2 = 0 then
          if text.take 8 = ['D', 'O', 'C', 'T', 'Y', 'P', 'E', ' '] then
            some { state with mode := .content }
          else none
        else some { state with mode := .declaration (text ++ [c]) }
    | .opening name =>
        if isNameCharacter c then some { state with mode := .opening (name ++ [c]) }
        else { state with name := String.ofList name, attributes := [] }.inTag c
    | .within =>
        if isNameStart c then some { state with mode := .key [c] } else state.inTag c
    | .key name =>
        if isNameCharacter c then some { state with mode := .key (name ++ [c]) }
        else if c = '=' then
          if String.ofList name ∈ state.attributes.map Prod.fst then none
          else some { state with mode := .equals name }
        else none
    | .equals name => if c = '"' then some { state with mode := .value name [] } else none
    | .value name text =>
        if c = '"' then
          some { state with
            mode := .after, attributes := state.attributes ++ [(String.ofList name, text)] }
        else if c = '&' then some { state with mode := .valueReference name text [] }
        else if c = '<' then none
        -- the blanks of a value are spaces
        else state.put (Alphabet.char (if isBlank c then ' ' else c))
    | .valueReference name text reference =>
        if c = ';' then
          (entity reference).bind fun d =>
            { state with mode := .value name text }.put (Alphabet.char d)
        else some { state with mode := .valueReference name text (reference ++ [c]) }
    | .after => state.inTag c
    | .slash =>
        if c = '>' then
          let leaf := .leaf state.name state.attributes []
          some { state with mode := .content, events := state.events ++ [leaf] }
        else none
    | .closing name =>
        if c = '>' then state.leave (String.ofList name)
        else if isNameCharacter c then some { state with mode := .closing (name ++ [c]) }
        else none

/-- The tags of a document, once its outermost element has ended. -/
def State.finished (state : State τ) : Option (List (Event τ)) :=
  match state.mode, state.stack with
  | .content, [] => if state.events.isEmpty then none else some state.events
  | _, _ => none

/-- One character after the other. -/
def State.run (state : State τ) : List Char → Option (State τ)
  | [] => some state
  | c :: rest => (state.step c).bind fun next => next.run rest

/-- The tags of a document. -/
def read (text : List Char) : Option (List (Event Char)) :=
  (State.initial.run text).bind State.finished

/-! ## Templates of documents -/

variable {ι : Type}

/-- A symbol of a template. A value may stand in a text and in an attribute. -/
def State.advance (state : State (Symbol ι)) : Symbol ι → Option (State (Symbol ι))
  | .char c => state.step c
  | .hole index => state.put (.hole index)

def State.runTemplate (state : State (Symbol ι)) : List (Symbol ι) → Option (State (Symbol ι))
  | [] => some state
  | symbol :: rest => (state.advance symbol).bind fun next => next.runTemplate rest

/-- The tags of a template. -/
def readTemplate (template : List (Symbol ι)) : Option (List (Event (Symbol ι))) :=
  (State.initial.runTemplate template).bind State.finished

/-- The name of the reference to a character that does not stand for itself everywhere. -/
def reference (c : Char) : Option (List Char) :=
  if c = '&' then some ['a', 'm', 'p']
  else if c = '<' then some ['l', 't']
  else if c = '>' then some ['g', 't']
  else if c = '"' then some ['q', 'u', 'o', 't']
  else if c = '\'' then some ['a', 'p', 'o', 's']
  else none

/-- How a character stands in a text and in a value. -/
def escapeCharacter (c : Char) : List Char :=
  match reference c with
  | some name => '&' :: (name ++ [';'])
  | none => [c]

def escape (text : List Char) : List Char := text.flatMap escapeCharacter

/-- The document that a template is with values in its places. -/
def document (values : ι → List Char) (template : List (Symbol ι)) : List Char :=
  fill (fun index => escape (values index)) template

section

variable (values : ι → List Char)

def fillAttributes (attributes : List (String × List (Symbol ι))) : List (String × List Char) :=
  attributes.map fun (name, value) => (name, Foundations.fill values value)

def Event.fill : Event (Symbol ι) → Event Char
  | .leaf name attributes text =>
      .leaf name (fillAttributes values attributes) (Foundations.fill values text)
  | .start name attributes => .start name (fillAttributes values attributes)
  | .finish name => .finish name

def Mode.fill : Mode (Symbol ι) → Mode Char
  | .beginning => .beginning
  | .first => .first
  | .content => .content
  | .reference name => .reference name
  | .markup => .markup
  | .instruction text => .instruction text
  | .declaration text => .declaration text
  | .opening name => .opening name
  | .within => .within
  | .key name => .key name
  | .equals name => .equals name
  | .value name text => .value name (Foundations.fill values text)
  | .valueReference name text read => .valueReference name (Foundations.fill values text) read
  | .after => .after
  | .slash => .slash
  | .closing name => .closing name

def State.fill (state : State (Symbol ι)) : State Char where
  mode := state.mode.fill values
  events := state.events.map (Event.fill values)
  stack := state.stack
  name := state.name
  attributes := fillAttributes values state.attributes
  fresh := state.fresh
  text := Foundations.fill values state.text
  declared := state.declared

end

variable {values : ι → List Char}

/-! ## Filling commutes with reading -/

/-- Where one reader goes on with a template, the other goes on with what it is filled to. -/
def Fills (values : ι → List Char) (read : Option (State (Symbol ι)))
    (filled : Option (State Char)) : Prop :=
  ∀ state, read = some state → filled = some (state.fill values)

theorem Fills.none {filled : Option (State Char)} : Fills values none filled :=
  fun _ h => nomatch h

theorem Fills.some {state : State (Symbol ι)} {filled : State Char}
    (h : filled = state.fill values) : Fills values (some state) (some filled) := by
  intro next hnext
  cases hnext
  rw [h]

theorem Fills.ite {condition : Prop} [Decidable condition] {read read' : Option (State (Symbol ι))}
    {filled filled' : Option (State Char)} (h : Fills values read filled)
    (h' : Fills values read' filled') :
    Fills values (if condition then read else read') (if condition then filled else filled') := by
  split
  · exact h
  · exact h'

theorem Fills.bind_entity {name : List Char} {read : Char → Option (State (Symbol ι))}
    {filled : Char → Option (State Char)} (h : ∀ c, Fills values (read c) (filled c)) :
    Fills values ((entity name).bind read) ((entity name).bind filled) := by
  cases entity name with
  | none => exact .none
  | some c => exact h c

theorem blank_fill {text : List (Symbol ι)} (h : text.all Alphabet.blank = true) :
    (Foundations.fill values text).all Alphabet.blank = true := by
  induction text with
  | nil => rfl
  | cons symbol rest ih =>
      obtain ⟨hsymbol, hrest⟩ := Bool.and_eq_true_iff.mp h
      cases symbol with
      | char c => exact Bool.and_eq_true_iff.mpr ⟨hsymbol, ih hrest⟩
      | hole index => cases hsymbol

theorem Fills.blank {text : List (Symbol ι)} {read : Option (State (Symbol ι))}
    {filled : Option (State Char)} (h : Fills values read filled) :
    Fills values (if text.all Alphabet.blank then read else Option.none)
      (if (Foundations.fill values text).all Alphabet.blank then filled else Option.none) := by
  split
  · rename_i hblank
    rw [if_pos (blank_fill hblank)]
    exact h
  · exact .none

variable (state : State (Symbol ι)) (c : Char)

theorem put_fills : Fills values (state.put (.char c)) ((state.fill values).put c) := by
  obtain ⟨mode, events, stack, name, attributes, fresh, text, declared⟩ := state
  cases mode with
  | content =>
      refine .ite .none (.some ?_)
      simp [State.fill, Mode.fill]
  | value name text =>
      refine .some ?_
      simp [State.fill, Mode.fill]
  | _ => exact .none

theorem enter_fills : Fills values (state.enter c) ((state.fill values).enter c) := by
  have hevents : (state.fill values).events.isEmpty = state.events.isEmpty := by
    simp [State.fill]
  unfold State.enter
  rw [hevents]
  refine .ite .none (.blank (.some ?_))
  cases hfresh : state.fresh <;> simp [State.fill, Mode.fill, Event.fill, hfresh]

theorem leave_fills (name : String) :
    Fills values (state.leave name) ((state.fill values).leave name) := by
  obtain ⟨mode, events, stack, tag, attributes, fresh, text, declared⟩ := state
  cases stack with
  | nil => exact .none
  | cons innermost stack =>
      refine .ite .none (.ite (.some ?_) (.blank (.some ?_)))
      · simp [State.fill, Mode.fill, Event.fill]
      · simp [State.fill, Mode.fill, Event.fill]

theorem in_tag_fills : Fills values (state.inTag c) ((state.fill values).inTag c) :=
  .ite (.some rfl) (.ite (.some rfl) (.ite (.some rfl) .none))

theorem in_content_fills : Fills values (state.inContent c) ((state.fill values).inContent c) :=
  .ite (.some rfl) (.ite (.some rfl) (.ite .none (put_fills _ c)))

theorem in_markup_fills : Fills values (state.inMarkup c) ((state.fill values).inMarkup c) := by
  have hevents : (state.fill values).events.isEmpty = state.events.isEmpty := by
    simp [State.fill]
  unfold State.inMarkup
  rw [hevents]
  exact .ite (.some rfl) (.ite (.ite (.some rfl) .none) (.ite (enter_fills state c) .none))

/-- One character that is the template's own. -/
theorem step_fills : Fills values (state.step c) ((state.fill values).step c) := by
  obtain ⟨mode, events, stack, name, attributes, fresh, text, declared⟩ := state
  refine .ite .none ?_
  cases mode with
  | beginning => exact .ite (.some rfl) (in_content_fills _ c)
  | first => exact .ite (.some rfl) (in_markup_fills _ c)
  | content => exact in_content_fills _ c
  | reference name => exact .ite (.bind_entity fun d => put_fills _ d) (.some rfl)
  | markup => exact in_markup_fills _ c
  | instruction text => exact .ite (.ite (.some rfl) .none) (.some rfl)
  | declaration text => exact .ite (.ite (.some rfl) .none) (.some rfl)
  | opening name => exact .ite (.some rfl) (in_tag_fills _ c)
  | within => exact .ite (.some rfl) (in_tag_fills _ c)
  | key name =>
      have hnames : (fillAttributes values attributes).map Prod.fst = attributes.map Prod.fst := by
        simp [fillAttributes, Function.comp_def]
      refine .ite (.some rfl) (.ite ?_ .none)
      show Fills values _ (if _ ∈ (fillAttributes values attributes).map Prod.fst then _ else _)
      rw [hnames]
      exact .ite .none (.some rfl)
  | equals name => exact .ite (.some rfl) .none
  | value name text =>
      refine .ite (.some ?_) (.ite (.some rfl) (.ite .none (put_fills _ _)))
      simp [State.fill, Mode.fill, fillAttributes]
  | valueReference name text read => exact .ite (.bind_entity fun d => put_fills _ d) (.some rfl)
  | after => exact in_tag_fills _ c
  | slash =>
      refine .ite (.some ?_) .none
      simp [State.fill, Mode.fill, Event.fill]
  | closing name => exact .ite (leave_fills _ _) (.ite (.some rfl) .none)

/-! ## Values -/

/-- A character that stands for itself in a text and in a value: any but the control characters and
the two that no document has. -/
def isPlain (c : Char) : Bool := 32 ≤ c.toNat && isCharacter c

theorem escape_append (first second : List Char) :
    escape (first ++ second) = escape first ++ escape second := List.flatMap_append

theorem run_append {τ : Type} [Alphabet τ] (state : State τ) (first second : List Char) :
    state.run (first ++ second) = (state.run first).bind fun next => next.run second := by
  induction first generalizing state with
  | nil => rfl
  | cons c rest ih =>
      show (state.step c).bind _ = ((state.step c).bind _).bind _
      rw [Option.bind_assoc]
      exact congrArg _ (funext fun next => ih next)

/-- A mode in which the reader takes the symbols of a text. -/
def Mode.Taking {τ : Type} : Mode τ → Prop
  | .content => True
  | .value _ _ => True
  | _ => False

theorem isBlank_of_plain {c : Char} (h : isPlain c = true) (hblank : isBlank c = true) :
    c = ' ' := by
  have hle : 32 ≤ c.toNat := by
    simpa using (Bool.and_eq_true_iff.mp h).1
  obtain (rfl | rfl) | rfl := by simpa [isBlank] using hblank
  · rfl
  · exact absurd hle (by decide)
  · exact absurd hle (by decide)

/-- The references name the characters that they stand for. -/
theorem reference_entity {c : Char} {name : List Char} (h : reference c = some name) :
    isCharacter c = true ∧ entity name = some c ∧ ∀ d ∈ name, isCharacter d = true ∧ d ≠ ';' := by
  unfold reference at h
  split at h
  · cases h
    subst c
    simp [isCharacter, entity]
  · split at h
    · cases h
      subst c
      simp [isCharacter, entity]
    · split at h
      · cases h
        subst c
        simp [isCharacter, entity]
      · split at h
        · cases h
          subst c
          simp [isCharacter, entity]
        · split at h <;> cases h
          subst c
          simp [isCharacter, entity]

section

variable {state : State Char} {c : Char} {name : List Char}

theorem run_single : state.run [c] = state.step c := Option.bind_fun_some _

/-- The rest of a reference, where the mode collects its name. -/
theorem run_reference {mode : List Char → Mode Char} {outer : Mode Char} {before : List Char}
    (hend : ∀ read, { state with mode := mode read }.step ';' =
      (entity read).bind fun d => { state with mode := outer }.put d)
    (hnext : ∀ read d, isCharacter d = true → d ≠ ';' →
      { state with mode := mode read }.step d = some { state with mode := mode (read ++ [d]) })
    (hname : ∀ d ∈ name, isCharacter d = true ∧ d ≠ ';')
    (hentity : entity (before ++ name) = some c) :
    { state with mode := mode before }.run (name ++ [';']) =
      { state with mode := outer }.put c := by
  induction name generalizing before with
  | nil =>
      rw [List.append_nil] at hentity
      rw [List.nil_append, run_single, hend, hentity]
      rfl
  | cons d rest ih =>
      obtain ⟨hcharacter, hsemicolon⟩ := hname d List.mem_cons_self
      show (State.step _ d).bind _ = _
      rw [hnext before d hcharacter hsemicolon]
      refine ih (fun e he => hname e (List.mem_cons_of_mem d he)) ?_
      rwa [List.append_assoc]

/-- A character that is escaped is taken as it is. -/
theorem run_escape_character (hmode : state.mode.Taking) (hplain : isPlain c = true) :
    state.run (escapeCharacter c) = state.put c := by
  obtain ⟨mode, events, stack, name, attributes, fresh, text, declared⟩ := state
  have hcharacter : isCharacter c = true := (Bool.and_eq_true_iff.mp hplain).2
  unfold escapeCharacter
  cases hreference : reference c with
  | some name =>
      obtain ⟨-, hentity, hname⟩ := reference_entity hreference
      cases mode with
      | content =>
          refine run_reference (fun _ => rfl) (fun read d hd hsemicolon => ?_) hname hentity
          simp [State.step, hd, hsemicolon]
      | value key text =>
          refine run_reference (fun _ => rfl) (fun read d hd hsemicolon => ?_) hname hentity
          simp [State.step, hd, hsemicolon]
      | _ => cases hmode
  | none =>
      have hother : c ≠ '&' ∧ c ≠ '<' ∧ c ≠ '>' ∧ c ≠ '"' := by
        refine ⟨?_, ?_, ?_, ?_⟩ <;>
          · rintro rfl
            cases hreference
      rw [run_single]
      cases mode with
      | content => simp [State.step, State.inContent, hcharacter, hother, Alphabet.char]
      | value key text =>
          have hsame : (if isBlank c then ' ' else c) = c := by
            split
            · rename_i hblank
              exact (isBlank_of_plain hplain hblank).symm
            · rfl
          simp [State.step, hcharacter, hother, Alphabet.char, hsame]
      | _ => cases hmode

end

theorem run_escape_content {state : State Char} (hinside : state.stack ≠ []) {text : List Char}
    (hplain : ∀ c ∈ text, isPlain c = true) :
    { state with mode := .content }.run (escape text) =
      some { state with mode := .content, text := state.text ++ text } := by
  induction text generalizing state with
  | nil => simp [escape, State.run]
  | cons c rest ih =>
      show State.run _ (escapeCharacter c ++ escape rest) = _
      rw [run_append, run_escape_character (by exact trivial) (hplain c List.mem_cons_self)]
      have hput : { state with mode := .content }.put c =
          some { state with mode := .content, text := state.text ++ [c] } := by
        simp [State.put, hinside]
      rw [hput]
      have hrest := @ih { state with text := state.text ++ [c] } hinside
        fun d hd => hplain d (List.mem_cons_of_mem c hd)
      simpa using hrest

theorem run_escape_value {state : State Char} {name read text : List Char}
    (hplain : ∀ c ∈ text, isPlain c = true) :
    { state with mode := .value name read }.run (escape text) =
      some { state with mode := .value name (read ++ text) } := by
  induction text generalizing read with
  | nil => simp [escape, State.run]
  | cons c rest ih =>
      show State.run _ (escapeCharacter c ++ escape rest) = _
      rw [run_append, run_escape_character (by exact trivial) (hplain c List.mem_cons_self)]
      have hrest := @ih (read ++ [c]) fun d hd => hplain d (List.mem_cons_of_mem c hd)
      simpa [State.put] using hrest

/-- A value takes its place, in a text and in an attribute. -/
theorem hole_fills (state : State (Symbol ι)) {index : ι}
    (hplain : ∀ c ∈ values index, isPlain c = true) :
    Fills values (state.put (.hole index)) ((state.fill values).run (escape (values index))) := by
  intro next hnext
  unfold State.put at hnext
  split at hnext
  · rename_i hmode
    split at hnext <;> cases hnext
    rename_i hinside
    have hstack : (state.fill values).stack ≠ [] := by
      simpa [Alphabet.blank, State.fill] using hinside
    have hrun := run_escape_content hstack hplain
    simpa [State.fill, hmode, Mode.fill] using hrun
  · rename_i key read hmode
    cases hnext
    have hrun := @run_escape_value (state.fill values) key (Foundations.fill values read) _ hplain
    simpa [State.fill, hmode, Mode.fill] using hrun
  · cases hnext

/-! ## Documents -/

/-- The reader goes through a document as through its template. -/
theorem run_document (hplain : ∀ index, ∀ c ∈ values index, isPlain c = true)
    (state : State (Symbol ι)) (template : List (Symbol ι)) :
    Fills values (state.runTemplate template)
      ((state.fill values).run (document values template)) := by
  induction template generalizing state with
  | nil =>
      intro next hnext
      cases hnext
      rfl
  | cons symbol rest ih =>
      intro next hnext
      obtain ⟨middle, hadvance, hrest⟩ := Option.bind_eq_some_iff.mp hnext
      show State.run _ (symbol.fill _ ++ document values rest) = _
      rw [run_append]
      have hsymbol : (state.fill values).run (symbol.fill fun index => escape (values index)) =
          some (middle.fill values) := by
        cases symbol with
        | char c => exact run_single.trans (step_fills state c middle hadvance)
        | hole index => exact hole_fills state (hplain index) middle hadvance
      rw [hsymbol]
      exact ih middle next hrest

/-- A document reads as its template does, with the values in their places. -/
theorem read_document {template : List (Symbol ι)} {events : List (Event (Symbol ι))}
    (hplain : ∀ index, ∀ c ∈ values index, isPlain c = true)
    (h : readTemplate template = some events) :
    read (document values template) = some (events.map (Event.fill values)) := by
  obtain ⟨final, hrun, hfinished⟩ := Option.bind_eq_some_iff.mp h
  have hdocument := run_document hplain .initial template final hrun
  show (State.run .initial _).bind _ = _
  rw [show State.initial = State.initial.fill values from rfl, hdocument, Option.bind_some]
  unfold State.finished at hfinished
  split at hfinished
  · rename_i hmode hstack
    split at hfinished <;> cases hfinished
    rename_i hevents
    have hfilled : ¬ (final.events.map (Event.fill values)).isEmpty = true := by
      simpa using hevents
    simp only [State.finished, State.fill, hmode, Mode.fill, hstack, if_neg hfilled]
  · cases hfinished

/-- The reader of a format string may take its characters spelled out. -/
theorem read_spelled {pieces : List (Piece ι)} {template : List (Symbol ι)}
    {events : List (Event (Symbol ι))} (h : Spells pieces template)
    (hread : readTemplate template = some events) :
    readTemplate (symbols pieces) = some events := by
  rw [symbols_of_spells h, hread]

/-- No document has a character in it that is not one of documents. -/
theorem run_none {state : State Char} {text : List Char} {c : Char} (hmem : c ∈ text)
    (hc : isCharacter c = false) : state.run text = none := by
  induction text generalizing state with
  | nil => cases hmem
  | cons d rest ih =>
      obtain rfl | hmem := List.mem_cons.mp hmem
      · simp [State.run, State.step, hc]
      · refine Option.bind_eq_none_iff.mpr fun next _ => ih hmem

/-- A document with values in all of its places is read back exactly where the values have only
characters of documents. -/
theorem read_document_iff {template : List (Symbol ι)} {events : List (Event (Symbol ι))}
    (h : readTemplate template = some events) (hplaces : ∀ index, .hole index ∈ template)
    (hcontrol : ∀ index, ∀ c ∈ values index, 32 ≤ c.toNat) :
    read (document values template) = some (events.map (Event.fill values)) ↔
      ∀ index, ∀ c ∈ values index, c.toNat ≠ 0xFFFE ∧ c.toNat ≠ 0xFFFF := by
  have hcharacter (index : ι) (c : Char) (hc : c ∈ values index) :
      isCharacter c = true ↔ c.toNat ≠ 0xFFFE ∧ c.toNat ≠ 0xFFFF := by
    have hle := hcontrol index c hc
    have htab : c ≠ '\t' := by
      rintro rfl
      exact absurd hle (by decide)
    have hline : c ≠ '\n' := by
      rintro rfl
      exact absurd hle (by decide)
    simp [isCharacter, htab, hline, hle]
  constructor
  · intro hread index c hc
    refine (hcharacter index c hc).mp (Decidable.byContradiction fun hwrong => ?_)
    have hescaped : c ∈ escapeCharacter c := by
      unfold escapeCharacter
      cases hreference : reference c with
      | none => exact List.mem_singleton_self c
      | some name =>
          -- the characters with references are ASCII
          exact absurd (reference_entity hreference).1 hwrong
    have hmem : c ∈ document values template :=
      List.mem_flatMap.mpr ⟨_, hplaces index, List.mem_flatMap.mpr ⟨c, hc, hescaped⟩⟩
    have hnone : read (document values template) = none := by
      unfold read
      rw [run_none hmem (by simpa using hwrong)]
      rfl
    cases hnone.symm.trans hread
  · intro hvalues
    refine read_document (fun index c hc => ?_) h
    exact Bool.and_eq_true_iff.mpr ⟨decide_eq_true (hcontrol index c hc),
      (hcharacter index c hc).mpr (hvalues index c hc)⟩

end Foundations.Xml
