import Mathlib.Data.List.Basic

/-!
# Semantic Versioning 2.0.0

The versions of the grammar as data, `SemanticVersion.text` for how one is written, and
`SemanticVersion.Precedes` for which of two is lower. Two versions have the same precedence if
they differ in their build metadata only. The rest is what a program that reads such a text needs:
which separators a piece of it does not contain, and that a list of identifiers is compared one
identifier after another (`lex_of_compare`).
-/

namespace Foundations

/-- A character of an identifier: `[0-9A-Za-z-]`. -/
def IsIdentifierChar (c : Char) : Prop := c.isAlphanum = true ∨ c = '-'

/-- A number in its decimal digits, without leading zeros. -/
def decimal (value : Nat) : List Char := Nat.toDigits 10 value

/-- A pre-release identifier. One made of digits only is a number. -/
inductive PreIdentifier where
  | numeric (value : Nat)
  | alphanumeric (text : List Char) (allowed : ∀ c ∈ text, IsIdentifierChar c)
      (not_numeric : ∃ c ∈ text, c.isDigit = false)

/-- A build identifier. -/
structure BuildIdentifier where
  text : List Char
  nonempty : text ≠ []
  allowed : ∀ c ∈ text, IsIdentifierChar c

/-- A version of the grammar. A version without the part has no identifiers for it. -/
structure SemanticVersion where
  major : Nat
  minor : Nat
  patch : Nat
  prerelease : List PreIdentifier
  build : List BuildIdentifier

namespace PreIdentifier

/-- How an identifier is written. -/
def text : PreIdentifier → List Char
  | numeric value => decimal value
  | alphanumeric text _ _ => text

/-- Numbers by their value, texts in ASCII order, and every number before every text. -/
inductive Precedes : PreIdentifier → PreIdentifier → Prop
  | numbers {low high : Nat} : low < high → Precedes (.numeric low) (.numeric high)
  | number_text {value : Nat} {text : List Char} {allowed not_numeric} :
      Precedes (.numeric value) (.alphanumeric text allowed not_numeric)
  | texts {low high : List Char} {lowAllowed lowText highAllowed highText} :
      List.Lex (· < ·) low high →
      Precedes (.alphanumeric low lowAllowed lowText) (.alphanumeric high highAllowed highText)

end PreIdentifier

namespace SemanticVersion

/-- `major.minor.patch`. -/
def core (version : SemanticVersion) : List Char :=
  ['.'].intercalate [decimal version.major, decimal version.minor, decimal version.patch]

/-- The dot-separated identifiers of the pre-release, if there is one. -/
def prereleaseText (version : SemanticVersion) : Option (List Char) :=
  if version.prerelease = [] then none
  else some (['.'].intercalate (version.prerelease.map PreIdentifier.text))

/-- The dot-separated identifiers of the build metadata, if there is any. -/
def buildText (version : SemanticVersion) : Option (List Char) :=
  if version.build = [] then none
  else some (['.'].intercalate (version.build.map BuildIdentifier.text))

/-- A part of the text with the character that announces it. -/
def announced (mark : Char) : Option (List Char) → List Char
  | none => []
  | some text => mark :: text

/-- How a version is written. -/
def text (version : SemanticVersion) : List Char :=
  (version.core ++ announced '-' version.prereleaseText) ++ announced '+' version.buildText

/-- Two versions have the same numbers. -/
structure SameCore (first second : SemanticVersion) : Prop where
  major : first.major = second.major
  minor : first.minor = second.minor
  patch : first.patch = second.patch

/-- The lower of two versions: by the numbers from left to right, then a pre-release before the
release, then by the pre-release identifiers from left to right, of which the shorter list is lower
if it is the beginning of the other. -/
inductive Precedes (low high : SemanticVersion) : Prop
  | major : low.major < high.major → Precedes low high
  | minor : low.major = high.major → low.minor < high.minor → Precedes low high
  | patch : low.major = high.major → low.minor = high.minor → low.patch < high.patch →
      Precedes low high
  | release : SameCore low high → low.prerelease ≠ [] → high.prerelease = [] → Precedes low high
  | prerelease : SameCore low high → low.prerelease ≠ [] →
      List.Lex PreIdentifier.Precedes low.prerelease high.prerelease → Precedes low high

/-- Neither of two versions is lower. -/
structure SamePrecedence (first second : SemanticVersion) : Prop where
  core : SameCore first second
  prerelease : first.prerelease = second.prerelease

/-- Every number of a version is below a limit. -/
structure NumbersBelow (limit : Nat) (version : SemanticVersion) : Prop where
  major : version.major < limit
  minor : version.minor < limit
  patch : version.patch < limit
  prerelease : ∀ value, .numeric value ∈ version.prerelease → value < limit

end SemanticVersion

/-! ## Characters -/

theorem decimal_digit {value : Nat} {c : Char} (h : c ∈ decimal value) : c.isDigit = true :=
  Nat.isDigit_of_mem_toDigits (by omega) (by omega) h

theorem decimal_ne_nil (value : Nat) : decimal value ≠ [] := Nat.toDigits_ne_nil

theorem digit_allowed {c : Char} (h : c.isDigit = true) : IsIdentifierChar c := by
  refine .inl ?_
  unfold Char.isAlphanum
  rw [h, Bool.or_true]

theorem identifier_char_ascii {c : Char} (h : IsIdentifierChar c) : c.toNat < 128 := by
  -- each of the ranges of letters and digits ends before `{`
  have hbelow : ∀ high : UInt32, high.toNat < 128 → c.val ≤ high → c.toNat < 128 :=
    fun high hhigh hc => Nat.lt_of_le_of_lt (UInt32.le_iff_toNat_le.mp hc) hhigh
  cases h with
  | inl h =>
      obtain h | hdigit := Bool.or_eq_true _ _ ▸ h
      · obtain hupper | hlower := Bool.or_eq_true _ _ ▸ h
        · exact hbelow 90 (by decide) (of_decide_eq_true hupper).2
        · exact hbelow 122 (by decide) (of_decide_eq_true (Bool.and_eq_true_iff.mp hlower).2)
      · exact hbelow 57 (by decide) (of_decide_eq_true (Bool.and_eq_true_iff.mp hdigit).2)
  | inr h =>
      rw [h]
      decide

/-- A separator is no character of an identifier. -/
theorem not_identifier_char {c : Char} (h : c = '.' ∨ c = '+') : ¬ IsIdentifierChar c := by
  intro hchar
  obtain rfl | rfl := h
  · cases hchar with
    | inl h => revert h; decide
    | inr h => revert h; decide
  · cases hchar with
    | inl h => revert h; decide
    | inr h => revert h; decide

namespace PreIdentifier

theorem text_allowed (identifier : PreIdentifier) : ∀ c ∈ identifier.text, IsIdentifierChar c := by
  cases identifier with
  | numeric value => exact fun c hc => digit_allowed (decimal_digit hc)
  | alphanumeric text allowed not_numeric => exact allowed

end PreIdentifier

theorem mem_intercalate {α : Type} {separator : α} {pieces : List (List α)} {c : α}
    (h : c ∈ [separator].intercalate pieces) : c = separator ∨ ∃ piece ∈ pieces, c ∈ piece := by
  induction pieces with
  | nil => cases h
  | cons first rest ih =>
      cases rest with
      | nil =>
          rw [List.intercalate_singleton] at h
          exact .inr ⟨first, List.mem_cons_self, h⟩
      | cons second rest =>
          rw [List.intercalate_cons_cons, List.append_assoc, List.mem_append, List.mem_append] at h
          obtain h | h | h := h
          · exact .inr ⟨first, List.mem_cons_self, h⟩
          · exact .inl (List.mem_singleton.mp h)
          · obtain h | ⟨piece, hpiece, hc⟩ := ih h
            · exact .inl h
            · exact .inr ⟨piece, List.mem_cons_of_mem _ hpiece, hc⟩

namespace SemanticVersion

theorem core_chars {version : SemanticVersion} {c : Char} (h : c ∈ version.core) :
    c = '.' ∨ c.isDigit = true := by
  obtain h | ⟨piece, hpiece, hc⟩ := mem_intercalate h
  · exact .inl h
  · refine .inr ?_
    rw [List.mem_cons, List.mem_cons, List.mem_singleton] at hpiece
    obtain rfl | rfl | rfl := hpiece
    · exact decimal_digit hc
    · exact decimal_digit hc
    · exact decimal_digit hc

theorem core_no_dash (version : SemanticVersion) : '-' ∉ version.core := by
  intro h
  obtain h | h := core_chars h
  · revert h; decide
  · revert h; decide

/-- The first plus of a version announces its build metadata. -/
theorem no_plus (version : SemanticVersion) :
    '+' ∉ version.core ++ announced '-' version.prereleaseText := by
  intro h
  rw [List.mem_append] at h
  obtain h | h := h
  · obtain h | h := core_chars h
    · revert h; decide
    · revert h; decide
  · unfold prereleaseText at h
    split at h
    · cases h
    · rw [announced, List.mem_cons] at h
      obtain h | h := h
      · revert h; decide
      · obtain h | ⟨piece, hpiece, hc⟩ := mem_intercalate h
        · revert h; decide
        · obtain ⟨identifier, _, rfl⟩ := List.mem_map.mp hpiece
          exact not_identifier_char (.inr rfl) (identifier.text_allowed _ hc)

/-- The identifiers of a version are found again between the dots. -/
theorem split_core (version : SemanticVersion) :
    version.core.splitOn '.' =
      [decimal version.major, decimal version.minor, decimal version.patch] := by
  refine List.splitOn_intercalate '.' ?_ (List.cons_ne_nil _ _)
  intro piece hpiece hdot
  rw [List.mem_cons, List.mem_cons, List.mem_singleton] at hpiece
  have hdigit : ('.' : Char).isDigit = true := by
    obtain rfl | rfl | rfl := hpiece
    · exact decimal_digit hdot
    · exact decimal_digit hdot
    · exact decimal_digit hdot
  cases hdigit

theorem split_prerelease {identifiers : List PreIdentifier} (h : identifiers ≠ []) :
    (['.'].intercalate (identifiers.map PreIdentifier.text)).splitOn '.' =
      identifiers.map PreIdentifier.text := by
  refine List.splitOn_intercalate '.' ?_ ?_
  · intro piece hpiece hdot
    obtain ⟨identifier, _, rfl⟩ := List.mem_map.mp hpiece
    exact not_identifier_char (.inl rfl) (identifier.text_allowed _ hdot)
  · intro hnil
    exact h (List.map_eq_nil_iff.mp hnil)

end SemanticVersion

/-! ## Lists compared item by item -/

/-- A comparison that tells the items of two lists apart the way a relation does tells the lists
apart the way the relation does from left to right. -/
theorem lex_of_compare {α β : Type} {write : α → β} {compare : β → β → Ordering}
    {lower : α → α → Prop} {first second : List α}
    (hlower : ∀ a ∈ first, ∀ b ∈ second, compare (write a) (write b) = .lt ↔ lower a b)
    (hsame : ∀ a ∈ first, ∀ b ∈ second, compare (write a) (write b) = .eq ↔ a = b) :
    List.compareLex compare (first.map write) (second.map write) = .lt ↔
      List.Lex lower first second := by
  induction first generalizing second with
  | nil =>
      cases second with
      | nil => exact ⟨nofun, nofun⟩
      | cons b others => exact ⟨fun _ => .nil, fun _ => rfl⟩
  | cons a rest ih =>
      cases second with
      | nil => exact ⟨nofun, nofun⟩
      | cons b others =>
          have hrest := ih
            (fun x hx y hy => hlower x (List.mem_cons_of_mem _ hx) y (List.mem_cons_of_mem _ hy))
            (fun x hx y hy => hsame x (List.mem_cons_of_mem _ hx) y (List.mem_cons_of_mem _ hy))
          rw [List.map_cons, List.map_cons, List.compareLex_cons_cons, Ordering.then_eq_lt,
            hlower a List.mem_cons_self b List.mem_cons_self,
            hsame a List.mem_cons_self b List.mem_cons_self, hrest]
          constructor
          · intro h
            obtain h | ⟨rfl, h⟩ := h
            · exact .rel h
            · exact .cons h
          · intro h
            cases h with
            | rel h => exact .inl h
            | cons h => exact .inr ⟨rfl, h⟩

theorem same_of_compare {α β : Type} {write : α → β} {compare : β → β → Ordering}
    {first second : List α}
    (hsame : ∀ a ∈ first, ∀ b ∈ second, compare (write a) (write b) = .eq ↔ a = b) :
    List.compareLex compare (first.map write) (second.map write) = .eq ↔ first = second := by
  induction first generalizing second with
  | nil =>
      cases second with
      | nil => exact ⟨fun _ => rfl, fun _ => rfl⟩
      | cons b others => exact ⟨nofun, nofun⟩
  | cons a rest ih =>
      cases second with
      | nil => exact ⟨nofun, nofun⟩
      | cons b others =>
          have hrest := ih fun x hx y hy =>
            hsame x (List.mem_cons_of_mem _ hx) y (List.mem_cons_of_mem _ hy)
          rw [List.map_cons, List.map_cons, List.compareLex_cons_cons, Ordering.then_eq_eq,
            hsame a List.mem_cons_self b List.mem_cons_self, hrest, List.cons.injEq]

end Foundations
