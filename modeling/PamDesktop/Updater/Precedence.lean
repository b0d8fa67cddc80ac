import PamDesktop.Foundations.SemanticVersion
import PamDesktop.Updater.Versions

/-!
# Semantic versions in `compare_versions`

On the versions of the Semantic Versioning grammar whose numbers fit in 64 bits, `compare_versions`
is their precedence. The texts are taken apart as they were put together (`read_semantic_version`),
and then the comparison is that of the numbers and of the lists of identifiers.
-/

namespace PamDesktop.Updater.Versions

open Foundations Protocol Updater

/-! ## Reading a semantic version -/

theorem kept_before {separator : Char} {before : List Char} (h : separator ∉ before) :
    ∀ c ∈ before, decide (c ≠ separator) = true := by
  intro c hc
  refine decide_eq_true ?_
  intro heq
  rw [heq] at hc
  exact h hc

/-- A part of a text is split off where it is announced. -/
theorem split_once_announced {separator : Char} {before : List Char} {after : Option (List Char)}
    (h : separator ∉ before) :
    splitOnce separator (before ++ SemanticVersion.announced separator after) =
      (before, after) := by
  unfold splitOnce
  rw [List.dropWhile_append_of_pos (kept_before h), List.takeWhile_append_of_pos (kept_before h)]
  cases after with
  | none => rw [SemanticVersion.announced, List.append_nil]; rfl
  | some after => simp [SemanticVersion.announced]

/-- The program takes a version apart as the grammar puts it together. -/
theorem read_semantic_version (version : SemanticVersion) :
    readVersion (String.ofList version.text) =
      ⟨[decimal version.major, decimal version.minor, decimal version.patch],
        version.prereleaseText⟩ := by
  unfold readVersion SemanticVersion.text
  rw [String.toList_ofList, split_once_announced version.no_plus,
    split_once_announced version.core_no_dash, ← version.split_core]

/-- Reading a number that has no sign. -/
theorem parse_unsigned {text : List Char} (h : '+' ∉ text) :
    parseU64 text =
      if text.isEmpty || !text.all Char.isDigit || decide (2 ^ 64 ≤ Nat.ofDigitChars 10 text 0)
      then none else some (Nat.ofDigitChars 10 text 0) := by
  have hvalue : Nat.ofDigitChars 10 text 0 =
      text.foldl (fun value c => value * 10 + (c.toNat - 48)) 0 := by
    rw [Nat.ofDigitChars_eq_foldl]
    congr 1
    funext value c
    rw [Nat.mul_comm]
    rfl
  simp only [parseU64]
  split
  · exact absurd List.mem_cons_self h
  · rw [hvalue]
    rfl

theorem parse_decimal {value : Nat} (h : value < 2 ^ 64) :
    parseU64 (decimal value) = some value := by
  have hplus : '+' ∉ decimal value := by
    intro hplus
    cases decimal_digit hplus
  have hdigits : (decimal value).all Char.isDigit = true :=
    List.all_eq_true.mpr fun c hc => decimal_digit hc
  have hvalue : Nat.ofDigitChars 10 (decimal value) 0 = value := Nat.ofDigitChars_ten_toDigits
  have hempty : (decimal value).isEmpty = false :=
    List.isEmpty_eq_false_iff.mpr (decimal_ne_nil value)
  have hfits : decide (2 ^ 64 ≤ value) = false := decide_eq_false (by omega)
  rw [parse_unsigned hplus, hvalue, hempty, hdigits, hfits]
  rfl

theorem parse_alphanumeric {text : List Char} (allowed : ∀ c ∈ text, IsIdentifierChar c)
    (not_numeric : ∃ c ∈ text, c.isDigit = false) : parseU64 text = none := by
  have hplus : '+' ∉ text := fun hplus => not_identifier_char (.inr rfl) (allowed _ hplus)
  have hdigits : text.all Char.isDigit = false := by
    obtain ⟨c, hc, hdigit⟩ := not_numeric
    exact List.all_eq_false.mpr ⟨c, hc, by rw [hdigit]; exact Bool.false_ne_true⟩
  rw [parse_unsigned hplus, hdigits]
  cases text.isEmpty <;> rfl

/-! ## The order of identifiers -/

/-- The bytes of an ASCII text. -/
theorem os_string_ascii {text : List Char} (h : ∀ c ∈ text, IsIdentifierChar c) :
    osString (String.ofList text) = text.map fun c => UInt8.ofNat c.toNat := by
  rw [os_string_of_list]
  induction text with
  | nil => rfl
  | cons c rest ih =>
      rw [List.flatMap_cons, List.map_cons,
        utf8_encode_ascii (identifier_char_ascii (h c List.mem_cons_self)),
        ih fun other hother => h other (List.mem_cons_of_mem _ hother)]
      rfl

theorem byte_order {c d : Char} (hc : c.toNat < 128) (hd : d.toNat < 128) :
    (compare (UInt8.ofNat c.toNat) (UInt8.ofNat d.toNat) = .lt ↔ c < d) ∧
      (compare (UInt8.ofNat c.toNat) (UInt8.ofNat d.toNat) = .eq ↔ c = d) := by
  have hbyte : ∀ n < 128, (UInt8.ofNat n).toNat = n := by
    intro n hn
    rw [UInt8.toNat_ofNat']
    omega
  constructor
  · rw [Std.compare_eq_lt, UInt8.lt_iff_toNat_lt, hbyte _ hc, hbyte _ hd]
    exact Iff.rfl
  · rw [Std.compare_eq_iff_eq, ← UInt8.toNat_inj, hbyte _ hc, hbyte _ hd]
    exact Char.toNat_inj

/-- Texts of identifier characters are in ASCII order. -/
theorem compare_text_ascii {low high : List Char} (hlow : ∀ c ∈ low, IsIdentifierChar c)
    (hhigh : ∀ c ∈ high, IsIdentifierChar c) :
    compareText low high = .lt ↔ List.Lex (· < ·) low high := by
  unfold compareText
  rw [os_string_ascii hlow, os_string_ascii hhigh]
  refine lex_of_compare ?_ ?_
  · intro c hc d hd
    exact (byte_order (identifier_char_ascii (hlow c hc)) (identifier_char_ascii (hhigh d hd))).1
  · intro c hc d hd
    exact (byte_order (identifier_char_ascii (hlow c hc)) (identifier_char_ascii (hhigh d hd))).2

/-- The number of an identifier fits in 64 bits. -/
def Fits (identifier : PreIdentifier) : Prop :=
  ∀ value, identifier = .numeric value → value < 2 ^ 64

theorem parse_numeric {value : Nat} (h : Fits (.numeric value)) :
    parseU64 (PreIdentifier.text (.numeric value)) = some value :=
  parse_decimal (h value rfl)

theorem parse_text {text : List Char} (allowed : ∀ c ∈ text, IsIdentifierChar c)
    (not_numeric : ∃ c ∈ text, c.isDigit = false) :
    parseU64 (PreIdentifier.text (.alphanumeric text allowed not_numeric)) = none :=
  parse_alphanumeric allowed not_numeric

theorem compare_identifier_lower {low high : PreIdentifier} (hlow : Fits low) (hhigh : Fits high) :
    compareIdentifier low.text high.text = .lt ↔ low.Precedes high := by
  unfold compareIdentifier
  cases low with
  | numeric m =>
      rw [parse_numeric hlow]
      cases high with
      | numeric n =>
          rw [parse_numeric hhigh]
          show compare m n = .lt ↔ _
          rw [Nat.compare_eq_lt]
          constructor
          · exact .numbers
          · intro h
            cases h with
            | numbers h => exact h
      | alphanumeric text allowed not_numeric =>
          rw [parse_text allowed not_numeric]
          exact ⟨fun _ => .number_text, fun _ => rfl⟩
  | alphanumeric text allowed not_numeric =>
      rw [parse_text allowed not_numeric]
      cases high with
      | numeric n =>
          rw [parse_numeric hhigh]
          exact ⟨nofun, nofun⟩
      | alphanumeric other otherAllowed otherText =>
          rw [parse_text otherAllowed otherText]
          show compareText text other = .lt ↔ _
          rw [compare_text_ascii allowed otherAllowed]
          constructor
          · exact .texts
          · intro h
            cases h with
            | texts h => exact h

theorem compare_identifier_same {first second : PreIdentifier} (hfirst : Fits first)
    (hsecond : Fits second) : compareIdentifier first.text second.text = .eq ↔ first = second := by
  constructor
  · intro h
    unfold compareIdentifier at h
    cases first with
    | numeric m =>
        rw [parse_numeric hfirst] at h
        cases second with
        | numeric n =>
            rw [parse_numeric hsecond] at h
            rw [Nat.compare_eq_eq.mp h]
        | alphanumeric text allowed not_numeric =>
            rw [parse_text allowed not_numeric] at h
            cases h
    | alphanumeric text allowed not_numeric =>
        rw [parse_text allowed not_numeric] at h
        cases second with
        | numeric n =>
            rw [parse_numeric hsecond] at h
            cases h
        | alphanumeric other otherAllowed otherText =>
            rw [parse_text otherAllowed otherText] at h
            have hsame : text = other := compare_text_eq.mp h
            subst hsame
            rfl
  · intro h
    rw [h]
    exact Std.ReflCmp.compare_self

/-! ## The precedence -/

theorem release_identifiers_fit {version : SemanticVersion}
    (h : version.NumbersBelow (2 ^ 64)) : ∀ identifier ∈ version.prerelease, Fits identifier := by
  intro identifier hmem value hvalue
  rw [hvalue] at hmem
  exact h.prerelease value hmem

/-- The comparison of the pre-releases. -/
theorem compare_semantic_releases {low high : SemanticVersion} (hlow : low.NumbersBelow (2 ^ 64))
    (hhigh : high.NumbersBelow (2 ^ 64)) :
    (compareReleases low.prereleaseText high.prereleaseText = .lt ↔ low.prerelease ≠ [] ∧
      (high.prerelease = [] ∨ List.Lex PreIdentifier.Precedes low.prerelease high.prerelease)) ∧
    (compareReleases low.prereleaseText high.prereleaseText = .eq ↔
      low.prerelease = high.prerelease) := by
  unfold SemanticVersion.prereleaseText
  by_cases hl : low.prerelease = []
  · rw [if_pos hl, hl]
    by_cases hh : high.prerelease = []
    · rw [if_pos hh, hh]
      exact ⟨⟨nofun, fun h => absurd rfl h.1⟩, ⟨fun _ => rfl, fun _ => rfl⟩⟩
    · rw [if_neg hh]
      exact ⟨⟨nofun, fun h => absurd rfl h.1⟩, ⟨nofun, fun h => absurd h.symm hh⟩⟩
  · rw [if_neg hl]
    by_cases hh : high.prerelease = []
    · rw [if_pos hh]
      exact ⟨⟨fun _ => ⟨hl, .inl hh⟩, fun _ => rfl⟩, ⟨nofun, fun h => absurd (h.trans hh) hl⟩⟩
    · rw [if_neg hh]
      have hlower : ∀ a ∈ low.prerelease, ∀ b ∈ high.prerelease,
          compareIdentifier a.text b.text = .lt ↔ a.Precedes b := fun a ha b hb =>
        compare_identifier_lower (release_identifiers_fit hlow a ha)
          (release_identifiers_fit hhigh b hb)
      have hsame : ∀ a ∈ low.prerelease, ∀ b ∈ high.prerelease,
          compareIdentifier a.text b.text = .eq ↔ a = b := fun a ha b hb =>
        compare_identifier_same (release_identifiers_fit hlow a ha)
          (release_identifiers_fit hhigh b hb)
      show (comparePrerelease _ _ = .lt ↔ _) ∧ (comparePrerelease _ _ = .eq ↔ _)
      rw [compare_prerelease_eq, SemanticVersion.split_prerelease hl,
        SemanticVersion.split_prerelease hh, lex_of_compare hlower hsame, same_of_compare hsame]
      exact ⟨⟨fun h => ⟨hl, .inr h⟩, fun h => h.2.resolve_left hh⟩, Iff.rfl⟩

/-- The comparison of two semantic versions. -/
theorem compare_semantic_eq {first second : SemanticVersion}
    (hfirst : first.NumbersBelow (2 ^ 64)) (hsecond : second.NumbersBelow (2 ^ 64)) :
    compareVersions (String.ofList first.text) (String.ofList second.text) =
      (compare first.major second.major).then ((compare first.minor second.minor).then
        ((compare first.patch second.patch).then
          (compareReleases first.prereleaseText second.prereleaseText))) := by
  have hread : compareVersions (String.ofList first.text) (String.ofList second.text) =
      compareRest (readVersion (String.ofList first.text))
        (readVersion (String.ofList second.text)) 0 3 := by
    refine compare_versions_eq ?_ ?_
    · rw [read_semantic_version]
      exact Nat.le_refl 3
    · rw [read_semantic_version]
      exact Nat.le_refl 3
  rw [hread, read_semantic_version, read_semantic_version, compare_rest_succ, compare_rest_succ,
    compare_rest_succ]
  show (compareVersionPart (decimal first.major) (decimal second.major)).then
    ((compareVersionPart (decimal first.minor) (decimal second.minor)).then
      ((compareVersionPart (decimal first.patch) (decimal second.patch)).then
        (compareReleases first.prereleaseText second.prereleaseText))) = _
  rw [compare_part_numbers (parse_decimal hfirst.major) (parse_decimal hsecond.major),
    compare_part_numbers (parse_decimal hfirst.minor) (parse_decimal hsecond.minor),
    compare_part_numbers (parse_decimal hfirst.patch) (parse_decimal hsecond.patch)]

theorem compare_semantic_lower {low high : SemanticVersion} (hlow : low.NumbersBelow (2 ^ 64))
    (hhigh : high.NumbersBelow (2 ^ 64)) :
    compareVersions (String.ofList low.text) (String.ofList high.text) = .lt ↔
      low.Precedes high := by
  rw [compare_semantic_eq hlow hhigh, Ordering.then_eq_lt, Ordering.then_eq_lt,
    Ordering.then_eq_lt, (compare_semantic_releases hlow hhigh).1, Nat.compare_eq_lt,
    Nat.compare_eq_lt, Nat.compare_eq_lt, Nat.compare_eq_eq, Nat.compare_eq_eq, Nat.compare_eq_eq]
  constructor
  · intro h
    obtain h | ⟨hmajor, h | ⟨hminor, h | ⟨hpatch, hsome, h | h⟩⟩⟩ := h
    · exact .major h
    · exact .minor hmajor h
    · exact .patch hmajor hminor h
    · exact .release ⟨hmajor, hminor, hpatch⟩ hsome h
    · exact .prerelease ⟨hmajor, hminor, hpatch⟩ hsome h
  · intro h
    cases h with
    | major h => exact .inl h
    | minor hmajor h => exact .inr ⟨hmajor, .inl h⟩
    | patch hmajor hminor h => exact .inr ⟨hmajor, .inr ⟨hminor, .inl h⟩⟩
    | release hcore hsome h =>
        exact .inr ⟨hcore.major, .inr ⟨hcore.minor, .inr ⟨hcore.patch, hsome, .inl h⟩⟩⟩
    | prerelease hcore hsome h =>
        exact .inr ⟨hcore.major, .inr ⟨hcore.minor, .inr ⟨hcore.patch, hsome, .inr h⟩⟩⟩

theorem compare_semantic_same {first second : SemanticVersion}
    (hfirst : first.NumbersBelow (2 ^ 64)) (hsecond : second.NumbersBelow (2 ^ 64)) :
    compareVersions (String.ofList first.text) (String.ofList second.text) = .eq ↔
      first.SamePrecedence second := by
  rw [compare_semantic_eq hfirst hsecond, Ordering.then_eq_eq, Ordering.then_eq_eq,
    Ordering.then_eq_eq, (compare_semantic_releases hfirst hsecond).2, Nat.compare_eq_eq,
    Nat.compare_eq_eq, Nat.compare_eq_eq]
  constructor
  · intro h
    exact ⟨⟨h.1, h.2.1, h.2.2.1⟩, h.2.2.2⟩
  · intro h
    exact ⟨h.core.major, h.core.minor, h.core.patch, h.prerelease⟩

/-- On semantic versions whose numbers fit, `compare_versions` is the precedence of Semantic
Versioning, whatever their build metadata is. -/
theorem compare_versions_is_precedence {first second : SemanticVersion}
    (hfirst : first.NumbersBelow (2 ^ 64)) (hsecond : second.NumbersBelow (2 ^ 64)) :
    (compareVersions (String.ofList first.text) (String.ofList second.text) = .lt ↔
      first.Precedes second) ∧
    (compareVersions (String.ofList first.text) (String.ofList second.text) = .eq ↔
      first.SamePrecedence second) ∧
    (compareVersions (String.ofList first.text) (String.ofList second.text) = .gt ↔
      second.Precedes first) := by
  refine ⟨compare_semantic_lower hfirst hsecond, compare_semantic_same hfirst hsecond, ?_⟩
  rw [compare_versions_swap, Ordering.swap_eq_gt]
  exact compare_semantic_lower hsecond hfirst

theorem rc_allowed : ∀ c ∈ ['r', 'c', '-', '1'], IsIdentifierChar c := by
  simp [IsIdentifierChar]

theorem rc_not_numeric : ∃ c ∈ ['r', 'c', '-', '1'], c.isDigit = false :=
  ⟨'r', List.mem_cons_self, rfl⟩

theorem build_nonempty : ['7', '-', 'a'] ≠ [] := List.cons_ne_nil _ _

theorem build_allowed : ∀ c ∈ ['7', '-', 'a'], IsIdentifierChar c := by
  simp [IsIdentifierChar]

/-- `1.0.0-rc-1.2`, a pre-release with a dash of its own. -/
def secondCandidate : SemanticVersion :=
  ⟨1, 0, 0, [.alphanumeric ['r', 'c', '-', '1'] rc_allowed rc_not_numeric, .numeric 2], []⟩

/-- `1.0.0-rc-1.10+7-a`. -/
def tenthCandidate : SemanticVersion :=
  ⟨1, 0, 0, [.alphanumeric ['r', 'c', '-', '1'] rc_allowed rc_not_numeric, .numeric 10],
    [⟨['7', '-', 'a'], build_nonempty, build_allowed⟩]⟩

theorem candidate_numbers {value : Nat} {identifiers : List BuildIdentifier} (h : value ≤ 10) :
    SemanticVersion.NumbersBelow (2 ^ 64) ⟨1, 0, 0,
      [.alphanumeric ['r', 'c', '-', '1'] rc_allowed rc_not_numeric, .numeric value],
      identifiers⟩ := by
  refine ⟨show 1 < 2 ^ 64 by omega, show 0 < 2 ^ 64 by omega, show 0 < 2 ^ 64 by omega, ?_⟩
  intro other hother
  rw [List.mem_cons, List.mem_singleton] at hother
  obtain h' | h' := hother
  · cases h'
  · cases h'
    omega

/-- The second candidate comes before the tenth. -/
theorem second_before_tenth :
    compareVersions (String.ofList secondCandidate.text) (String.ofList tenthCandidate.text) = .lt ∧
      String.ofList secondCandidate.text = "1.0.0-rc-1.2" ∧
      String.ofList tenthCandidate.text = "1.0.0-rc-1.10+7-a" := by
  have hbefore : secondCandidate.Precedes tenthCandidate :=
    .prerelease ⟨rfl, rfl, rfl⟩ (List.cons_ne_nil _ _) (.cons (.rel (.numbers (by decide))))
  have hlower := (compare_versions_is_precedence (candidate_numbers (by decide))
    (candidate_numbers (by decide))).1.mpr hbefore
  exact ⟨hlower, by decide +kernel, by decide +kernel⟩

end PamDesktop.Updater.Versions
