import Mathlib.Data.List.GetD
import Mathlib.Data.Nat.Find
import PamDesktop.Foundations.PathText
import PamDesktop.Updater.Release

/-!
# The order of versions

`compare_versions` part by part. A part that is no number is compared as text with one that is, so
a version can stand between two others in the order of texts that stand the other way round as
numbers: `versions_preordered_iff` says that this is the only thing that keeps the comparison from
being an order.
-/

namespace PamDesktop.Updater.Versions

open Foundations Protocol Updater

/-- A version as `compare_versions` splits it. -/
structure Version where
  parts : List (List Char)
  prerelease : Option (List Char)

/-- The numbered parts and the pre-release of a version, without the build metadata. -/
def readVersion (version : String) : Version :=
  let (core, prerelease) := splitOnce '-' (splitOnce '+' version.toList).1
  ⟨core.splitOn '.', prerelease⟩

namespace Version

/-- A numbered part; a missing one is zero. -/
def part (version : Version) (index : Nat) : List Char := version.parts.getD index ['0']

end Version

/-- The comparison of the pre-releases, for equal numbered parts. -/
def compareReleases (left right : Option (List Char)) : Ordering :=
  match left, right with
  | none, some _ => .gt
  | some _, none => .lt
  | some left, some right => comparePrerelease left right
  | none, none => .eq

/-- The comparison from some index on, up to the last part of both. -/
def compareRest (left right : Version) (index count : Nat) : Ordering :=
  (compareCores left.parts right.parts (List.range' index count)).then
    (compareReleases left.prerelease right.prerelease)

/-- The part of `middle` is no number and stands between two numbers in the order of texts. -/
structure Between (low middle high : List Char) : Prop where
  low_number : parseU64 low ≠ none
  middle_text : parseU64 middle = none
  high_number : parseU64 high ≠ none
  low_middle : compareText low middle = .lt
  middle_high : compareText middle high = .lt

/-- Two versions agree in every part before some index. -/
def Alike (left right : Version) (index : Nat) : Prop :=
  ∀ earlier < index, compareVersionPart (left.part earlier) (right.part earlier) = .eq

/-- Three versions that are alike up to a part that stands between two numbers, the lower of which
as a text is not the lower one as a number: it is greater, or it is the same and what follows is
not lower. -/
def Misplaced (low middle high : Version) : Prop :=
  ∃ index, Alike low middle index ∧ Alike middle high index ∧
    Between (low.part index) (middle.part index) (high.part index) ∧
    (compareVersionPart (low.part index) (high.part index)).then
      (compareRest low high (index + 1) (max low.parts.length high.parts.length)) ≠ .lt

/-- `compare_versions` orders the versions of a pool. -/
structure PreorderedOn (pool : String → Prop) : Prop where
  reverse : ∀ a b, pool a → pool b → compareVersions a b = (compareVersions b a).swap
  transitive : ∀ a b c, pool a → pool b → pool c → compareVersions a b ≠ .gt →
    compareVersions b c ≠ .gt → compareVersions a c ≠ .gt
  strict : ∀ a b c, pool a → pool b → pool c → compareVersions a b = .lt →
    compareVersions b c = .lt → compareVersions a c = .lt
  no_circle : ∀ version, ¬ Relation.TransGen
    (fun current candidate => pool current ∧ pool candidate ∧ versionIsNewer candidate current)
    version version

/-! ## Texts and numbers -/

theorem compare_text_swap (left right : List Char) :
    compareText left right = (compareText right left).swap := by
  unfold compareText
  exact Std.OrientedCmp.eq_swap

theorem compare_text_trans {first second third : List Char}
    (h : compareText first second = .lt) (h' : compareText second third = .lt) :
    compareText first third = .lt := by
  unfold compareText at h h' ⊢
  exact Std.TransCmp.lt_trans h h'

theorem compare_text_eq {left right : List Char} : compareText left right = .eq ↔ left = right := by
  constructor
  · intro h
    have hbytes : osString (String.ofList left) = osString (String.ofList right) :=
      Std.LawfulEqCmp.eq_of_compare h
    have htext := congrArg String.toList (os_string_injective hbytes)
    rw [String.toList_ofList, String.toList_ofList] at htext
    exact htext
  · intro h
    rw [h]
    exact Std.compare_self

/-- Numbers are compared as numbers. -/
theorem compare_part_numbers {left right : List Char} {m n : Nat} (hleft : parseU64 left = some m)
    (hright : parseU64 right = some n) : compareVersionPart left right = compare m n := by
  unfold compareVersionPart
  rw [hleft, hright]

/-- Everything else is compared as text. -/
theorem compare_part_text {left right : List Char}
    (h : parseU64 left = none ∨ parseU64 right = none) :
    compareVersionPart left right = compareText left right := by
  unfold compareVersionPart
  obtain h | h := h
  · rw [h]
  · rw [h]
    cases parseU64 left <;> rfl

theorem compare_part_swap (left right : List Char) :
    compareVersionPart left right = (compareVersionPart right left).swap := by
  cases hleft : parseU64 left with
  | none =>
      rw [compare_part_text (.inl hleft), compare_part_text (.inr hleft)]
      exact compare_text_swap left right
  | some m =>
      cases hright : parseU64 right with
      | none =>
          rw [compare_part_text (.inr hright), compare_part_text (.inl hright)]
          exact compare_text_swap left right
      | some n =>
          rw [compare_part_numbers hleft hright, compare_part_numbers hright hleft]
          exact Std.OrientedCmp.eq_swap

/-- Equal parts are the same number or the same text. -/
theorem compare_part_eq {left right : List Char} :
    compareVersionPart left right = .eq ↔ left = right ∨
      parseU64 left ≠ none ∧ parseU64 left = parseU64 right := by
  cases hleft : parseU64 left with
  | none =>
      rw [compare_part_text (.inl hleft), compare_text_eq]
      exact ⟨.inl, fun h => h.resolve_right fun h => h.1 rfl⟩
  | some m =>
      cases hright : parseU64 right with
      | none =>
          rw [compare_part_text (.inr hright), compare_text_eq]
          exact ⟨.inl, fun h => h.resolve_right fun h => by cases h.2⟩
      | some n =>
          rw [compare_part_numbers hleft hright, Nat.compare_eq_eq]
          constructor
          · intro h
            exact .inr ⟨Option.some_ne_none m, by rw [h]⟩
          · intro h
            obtain h | h := h
            · rw [h, hright] at hleft
              exact (Option.some.inj hleft).symm
            · exact Option.some.inj h.2

theorem compare_part_eq_trans {first second third : List Char}
    (h : compareVersionPart first second = .eq) (h' : compareVersionPart second third = .eq) :
    compareVersionPart first third = .eq := by
  rw [compare_part_eq] at h h' ⊢
  obtain h | ⟨hnumber, h⟩ := h
  · rw [h]
    exact h'
  · obtain h' | ⟨_, h'⟩ := h'
    · rw [← h']
      exact .inr ⟨hnumber, h⟩
    · exact .inr ⟨hnumber, h.trans h'⟩

/-! ## Three parts -/

theorem lt_or_eq_of_ne_gt {order : Ordering} (h : order ≠ .gt) : order = .lt ∨ order = .eq := by
  cases order with
  | lt => exact .inl rfl
  | eq => exact .inr rfl
  | gt => exact absurd rfl h

/-- Texts are ordered. -/
theorem compare_text_le_trans {first second third : List Char}
    (h : compareText first second ≠ .gt) (h' : compareText second third ≠ .gt)
    (hne : ¬ (compareText first second = .eq ∧ compareText second third = .eq)) :
    compareText first third = .lt := by
  obtain h | h := lt_or_eq_of_ne_gt h
  · obtain h' | h' := lt_or_eq_of_ne_gt h'
    · exact compare_text_trans h h'
    · rw [← compare_text_eq.mp h']
      exact h
  · obtain h' | h' := lt_or_eq_of_ne_gt h'
    · rw [compare_text_eq.mp h]
      exact h'
    · exact absurd ⟨h, h'⟩ hne

/-- A number and a text that is none are never equal. -/
theorem compare_text_mixed {number text : List Char} (hnumber : parseU64 number ≠ none)
    (htext : parseU64 text = none) :
    compareText number text = .lt ∨ compareText text number = .lt := by
  cases horder : compareText number text with
  | lt => exact .inl rfl
  | eq =>
      rw [compare_text_eq.mp horder] at hnumber
      exact absurd htext hnumber
  | gt =>
      rw [compare_text_swap, horder]
      exact .inr rfl

/-- Comparisons go through one of three parts unless a text stands between two numbers. -/
theorem compare_part_trans {first second third : List Char}
    (h : compareVersionPart first second ≠ .gt) (h' : compareVersionPart second third ≠ .gt)
    (hne : ¬ (compareVersionPart first second = .eq ∧ compareVersionPart second third = .eq)) :
    compareVersionPart first third = .lt ∨ Between first second third ∨
      Between second third first ∨ Between third first second := by
  cases hsecond : parseU64 second with
  | none =>
      rw [compare_part_text (.inr hsecond)] at h hne
      rw [compare_part_text (.inl hsecond)] at h' hne
      by_cases htext : parseU64 first = none ∨ parseU64 third = none
      · refine .inl ?_
        rw [compare_part_text htext]
        exact compare_text_le_trans h h' hne
      · have hnumbers := not_or.mp htext
        -- neither is equal to the text in the middle
        obtain hlow | hlow := compare_text_mixed hnumbers.1 hsecond
        · obtain hhigh | hhigh := compare_text_mixed hnumbers.2 hsecond
          · rw [compare_text_swap, hhigh] at h'
            exact absurd rfl h'
          · exact .inr (.inl ⟨hnumbers.1, hsecond, hnumbers.2, hlow, hhigh⟩)
        · rw [compare_text_swap, hlow] at h
          exact absurd rfl h
  | some n =>
      have hnumber : parseU64 second ≠ none := by
        rw [hsecond]
        exact Option.some_ne_none n
      cases hfirst : parseU64 first with
      | none =>
          rw [compare_part_text (.inl hfirst)] at h ⊢
          cases hthird : parseU64 third with
          | none =>
              rw [compare_part_text (.inr hthird)] at h'
              rw [compare_part_text (.inl hfirst), compare_part_text (.inr hthird)] at hne
              exact .inl (compare_text_le_trans h h' hne)
          | some p =>
              have hother : parseU64 third ≠ none := by
                rw [hthird]
                exact Option.some_ne_none p
              obtain hlow | hlow := compare_text_mixed hother hfirst
              · obtain hhigh | hhigh := compare_text_mixed hnumber hfirst
                · rw [compare_text_swap, hhigh] at h
                  exact absurd rfl h
                · exact .inr (.inr (.inr ⟨hother, hfirst, hnumber, hlow, hhigh⟩))
              · exact .inl hlow
      | some m =>
          have hlowest : parseU64 first ≠ none := by
            rw [hfirst]
            exact Option.some_ne_none m
          cases hthird : parseU64 third with
          | none =>
              rw [compare_part_text (.inr hthird)] at h' ⊢
              obtain hlow | hlow := compare_text_mixed hlowest hthird
              · exact .inl hlow
              · obtain hhigh | hhigh := compare_text_mixed hnumber hthird
                · exact .inr (.inr (.inl ⟨hnumber, hthird, hlowest, hhigh, hlow⟩))
                · rw [compare_text_swap, hhigh] at h'
                  exact absurd rfl h'
          | some p =>
              rw [compare_part_numbers hfirst hsecond] at h hne
              rw [compare_part_numbers hsecond hthird] at h' hne
              rw [compare_part_numbers hfirst hthird, Nat.compare_eq_lt]
              rw [Nat.compare_ne_gt] at h h'
              rw [Nat.compare_eq_eq, Nat.compare_eq_eq] at hne
              exact .inl (by omega)

/-! ## The comparison as a whole -/

theorem match_eq_then (first second : Ordering) :
    (match first with
      | .eq => second
      | order => order) = first.then second := by
  cases first <;> rfl

/-- Parts that both lack are equal. -/
theorem compare_cores_beyond (left right : List (List Char)) (indices : List Nat)
    (h : ∀ index ∈ indices, left.length ≤ index ∧ right.length ≤ index) :
    compareCores left right indices = .eq := by
  induction indices with
  | nil => rfl
  | cons index rest ih =>
      obtain ⟨hleft, hright⟩ := h index List.mem_cons_self
      unfold compareCores
      rw [List.getD_eq_default _ _ hleft, List.getD_eq_default _ _ hright,
        compare_version_part_self]
      exact ih fun other hother => h other (List.mem_cons_of_mem _ hother)

theorem compare_cores_cons (left right : List (List Char)) (index : Nat) (rest : List Nat) :
    compareCores left right (index :: rest) =
      (compareVersionPart (left.getD index ['0']) (right.getD index ['0'])).then
        (compareCores left right rest) := by
  rw [compareCores]
  cases compareVersionPart (left.getD index ['0']) (right.getD index ['0']) <;> rfl

theorem compare_cores_append (left right : List (List Char)) (first second : List Nat) :
    compareCores left right (first ++ second) =
      (compareCores left right first).then (compareCores left right second) := by
  induction first with
  | nil => rfl
  | cons index rest ih =>
      rw [List.cons_append, compare_cores_cons, compare_cores_cons, ih, Ordering.then_assoc]

theorem compare_cores_swap (left right : List (List Char)) (indices : List Nat) :
    compareCores left right indices = (compareCores right left indices).swap := by
  induction indices with
  | nil => rfl
  | cons index rest ih =>
      rw [compare_cores_cons, compare_cores_cons, Ordering.swap_then, ih,
        compare_part_swap (left.getD index ['0'])]

/-- The comparison of two parts of a pre-release. -/
def compareIdentifier (left right : List Char) : Ordering :=
  match parseU64 left, parseU64 right with
  | some left, some right => compare left right
  | some _, none => .lt
  | none, some _ => .gt
  | none, none => compareText left right

instance : Std.OrientedCmp compareIdentifier where
  eq_swap := by
    intro left right
    unfold compareIdentifier
    cases parseU64 left with
    | none =>
        cases parseU64 right with
        | none => exact compare_text_swap left right
        | some n => rfl
    | some m =>
        cases parseU64 right with
        | none => rfl
        | some n =>
            show compare m n = (compare n m).swap
            exact Std.OrientedCmp.eq_swap

/-- Numbers stand before texts, so nothing stands between two of a kind but what is of it. -/
instance : Std.TransCmp compareIdentifier where
  isLE_trans := by
    intro first second third h h'
    unfold compareIdentifier at h h' ⊢
    cases hfirst : parseU64 first with
    | none =>
        cases hsecond : parseU64 second with
        | none =>
            cases hthird : parseU64 third with
            | none =>
                simp only [hfirst, hsecond, hthird, compareText] at h h' ⊢
                exact Std.TransCmp.isLE_trans h h'
            | some p => simp [hsecond, hthird] at h'
        | some n => simp [hfirst, hsecond] at h
    | some m =>
        cases hthird : parseU64 third with
        | none => rfl
        | some p =>
            cases hsecond : parseU64 second with
            | none => simp [hsecond, hthird] at h'
            | some n =>
                simp only [hfirst, hsecond, hthird] at h h' ⊢
                exact Std.TransCmp.isLE_trans h h'

/-- The loop of `compare_prerelease` is the order of lists. -/
theorem compare_prerelease_parts_eq {left right : List (List Char)} {index count : Nat}
    (hleft : left.length ≤ index + count) (hright : right.length ≤ index + count) :
    comparePrereleaseParts left right (List.range' index count) =
      List.compareLex compareIdentifier (left.drop index) (right.drop index) := by
  induction count generalizing index with
  | zero =>
      rw [Nat.add_zero] at hleft hright
      rw [List.drop_eq_nil_of_le hleft, List.drop_eq_nil_of_le hright]
      rfl
  | succ count ih =>
      rw [List.range'_succ, comparePrereleaseParts]
      by_cases hl : index < left.length
      · rw [List.drop_eq_getElem_cons hl, List.getElem?_eq_getElem hl]
        by_cases hr : index < right.length
        · rw [List.drop_eq_getElem_cons hr, List.getElem?_eq_getElem hr,
            List.compareLex_cons_cons, ← ih (by omega) (by omega)]
          exact match_eq_then (compareIdentifier left[index] right[index]) _
        · rw [List.drop_eq_nil_of_le (Nat.le_of_not_lt hr),
            List.getElem?_eq_none (Nat.le_of_not_lt hr)]
          rfl
      · rw [List.drop_eq_nil_of_le (Nat.le_of_not_lt hl),
          List.getElem?_eq_none (Nat.le_of_not_lt hl)]
        by_cases hr : index < right.length
        · rw [List.drop_eq_getElem_cons hr, List.getElem?_eq_getElem hr]
          rfl
        · rw [List.drop_eq_nil_of_le (Nat.le_of_not_lt hr),
            List.getElem?_eq_none (Nat.le_of_not_lt hr)]
          rfl

theorem compare_prerelease_eq (left right : List Char) :
    comparePrerelease left right =
      List.compareLex compareIdentifier (left.splitOn '.') (right.splitOn '.') := by
  simp only [comparePrerelease]
  rw [List.range_eq_range', compare_prerelease_parts_eq (by omega) (by omega)]
  rfl

theorem compare_releases_swap (left right : Option (List Char)) :
    compareReleases left right = (compareReleases right left).swap := by
  cases left with
  | none => cases right <;> rfl
  | some left =>
      cases right with
      | none => rfl
      | some right =>
          show comparePrerelease left right = (comparePrerelease right left).swap
          rw [compare_prerelease_eq, compare_prerelease_eq]
          exact Std.OrientedCmp.eq_swap

theorem compare_releases_trans {first second third : Option (List Char)}
    (h : compareReleases first second ≠ .gt) (h' : compareReleases second third ≠ .gt) :
    compareReleases first third ≠ .gt := by
  cases first with
  | none =>
      cases second with
      | none => exact h'
      | some second => exact absurd rfl h
  | some first =>
      cases second with
      | none =>
          cases third with
          | none => exact nofun
          | some third => exact absurd rfl h'
      | some second =>
          cases third with
          | none => exact nofun
          | some third =>
              change comparePrerelease first second ≠ .gt at h
              change comparePrerelease second third ≠ .gt at h'
              show comparePrerelease first third ≠ .gt
              rw [compare_prerelease_eq, ne_eq, ← Ordering.isLE_iff_ne_gt] at h h' ⊢
              exact Std.TransCmp.isLE_trans h h'

theorem compare_rest_swap (left right : Version) (index count : Nat) :
    compareRest left right index count = (compareRest right left index count).swap := by
  unfold compareRest
  rw [Ordering.swap_then, ← compare_cores_swap, ← compare_releases_swap]

/-- The comparison takes in as many parts as one likes, if none of them is left out. -/
theorem compare_versions_eq {left right : String} {count : Nat}
    (hleft : (readVersion left).parts.length ≤ count)
    (hright : (readVersion right).parts.length ≤ count) :
    compareVersions left right = compareRest (readVersion left) (readVersion right) 0 count := by
  have hread : compareVersions left right = compareRest (readVersion left) (readVersion right) 0
      (max (readVersion left).parts.length (readVersion right).parts.length) := by
    unfold compareRest
    rw [← List.range_eq_range']
    exact match_eq_then _ _
  obtain ⟨more, hmore⟩ := Nat.exists_eq_add_of_le (Nat.max_le.mpr ⟨hleft, hright⟩)
  have hbeyond : compareCores (readVersion left).parts (readVersion right).parts
      (List.range' (0 + max (readVersion left).parts.length (readVersion right).parts.length)
        more) = .eq := by
    refine compare_cores_beyond _ _ _ fun index hindex => ?_
    have hbound := List.mem_range'_1.mp hindex
    omega
  rw [hread, hmore]
  unfold compareRest
  rw [← List.range'_append_1, compare_cores_append, hbeyond, Ordering.then_eq]

theorem Alike.trans {first second third : Version} {index : Nat} (h : Alike first second index)
    (h' : Alike second third index) : Alike first third index := by
  intro earlier hearlier
  exact compare_part_eq_trans (h earlier hearlier) (h' earlier hearlier)

theorem Alike.symm {left right : Version} {index : Nat} (h : Alike left right index) :
    Alike right left index := by
  intro earlier hearlier
  rw [compare_part_swap, h earlier hearlier]
  rfl

theorem compare_rest_succ (left right : Version) (index count : Nat) :
    compareRest left right index (count + 1) =
      (compareVersionPart (left.part index) (right.part index)).then
        (compareRest left right (index + 1) count) := by
  unfold compareRest
  rw [List.range'_succ, compare_cores_cons, Ordering.then_assoc]
  rfl

/-- Parts that agree do not decide. -/
theorem compare_rest_alike {left right : Version} (start skipped count : Nat)
    (h : Alike left right (start + skipped)) :
    compareRest left right start (skipped + count) =
      compareRest left right (start + skipped) count := by
  induction skipped generalizing start with
  | zero => rw [Nat.zero_add, Nat.add_zero]
  | succ skipped ih =>
      rw [show skipped + 1 + count = skipped + count + 1 by omega, compare_rest_succ,
        h start (by omega), Ordering.eq_then, ih (start + 1) fun earlier hearlier =>
          h earlier (by omega)]
      rw [show start + 1 + skipped = start + (skipped + 1) by omega]

/-- What decides between two versions that agree before some index. -/
theorem compare_versions_alike {left right : String} {index : Nat}
    (h : Alike (readVersion left) (readVersion right) index) :
    compareVersions left right =
      (compareVersionPart ((readVersion left).part index) ((readVersion right).part index)).then
        (compareRest (readVersion left) (readVersion right) (index + 1)
          (max (readVersion left).parts.length (readVersion right).parts.length)) := by
  have hall : compareVersions left right = compareRest (readVersion left) (readVersion right) 0
      (index + (max (readVersion left).parts.length (readVersion right).parts.length + 1)) :=
    compare_versions_eq (by omega) (by omega)
  rw [hall, compare_rest_alike 0 index _ (by rwa [Nat.zero_add]), Nat.zero_add, compare_rest_succ]

/-- Versions that agree in every part are told apart by their pre-releases. -/
theorem compare_versions_releases {left right : String} {count : Nat}
    (hleft : (readVersion left).parts.length ≤ count)
    (hright : (readVersion right).parts.length ≤ count)
    (h : Alike (readVersion left) (readVersion right) count) :
    compareVersions left right =
      compareReleases (readVersion left).prerelease (readVersion right).prerelease := by
  rw [compare_versions_eq hleft hright]
  have hskip := compare_rest_alike 0 count 0 (by rwa [Nat.zero_add])
  rw [Nat.add_zero] at hskip
  rw [hskip]
  rfl

theorem compare_versions_swap (left right : String) :
    compareVersions left right = (compareVersions right left).swap := by
  rw [compare_versions_eq (Nat.le_max_left _ _) (Nat.le_max_right _ _),
    compare_versions_eq (Nat.le_max_right _ _) (Nat.le_max_left _ _)]
  exact compare_rest_swap _ _ _ _

theorem ne_gt_of_then {first second : Ordering} (h : first.then second ≠ .gt) : first ≠ .gt := by
  intro hfirst
  rw [hfirst] at h
  exact h rfl

/-- Where something fails it fails somewhere first. -/
theorem exists_first {P : Nat → Prop} (h : ∃ index, ¬ P index) :
    ∃ index, ¬ P index ∧ ∀ earlier < index, P earlier := by
  classical
  exact ⟨Nat.find h, Nat.find_spec h, fun _ hearlier => not_not.mp (Nat.find_min h hearlier)⟩

/-- What `Misplaced` says of the comparisons: the part in the middle hides that the version it is
compared with is no lower than the third. -/
theorem misplaced_not_transitive {low middle high : String}
    (h : Misplaced (readVersion low) (readVersion middle) (readVersion high)) :
    compareVersions low middle = .lt ∧ compareVersions middle high = .lt ∧
      compareVersions low high ≠ .lt := by
  obtain ⟨index, hlow, hhigh, hbetween, hwrong⟩ := h
  refine ⟨?_, ?_, ?_⟩
  · rw [compare_versions_alike hlow, compare_part_text (.inr hbetween.middle_text),
      hbetween.low_middle]
    rfl
  · rw [compare_versions_alike hhigh, compare_part_text (.inl hbetween.middle_text),
      hbetween.middle_high]
    rfl
  · rw [compare_versions_alike (hlow.trans hhigh)]
    exact hwrong

/-- Without such a part, the comparison is transitive. -/
theorem compare_versions_trans {first second third : String}
    (h : compareVersions first second ≠ .gt) (h' : compareVersions second third ≠ .gt)
    (hplaced : ¬ Misplaced (readVersion first) (readVersion second) (readVersion third))
    (hplaced' : ¬ Misplaced (readVersion second) (readVersion third) (readVersion first))
    (hplaced'' : ¬ Misplaced (readVersion third) (readVersion first) (readVersion second)) :
    compareVersions first third ≠ .gt := by
  by_cases hall : ∀ index, compareVersionPart ((readVersion first).part index)
      ((readVersion second).part index) = .eq ∧
      compareVersionPart ((readVersion second).part index) ((readVersion third).part index) = .eq
  · have hfirst : ∀ count, Alike (readVersion first) (readVersion second) count :=
      fun _ index _ => (hall index).1
    have hsecond : ∀ count, Alike (readVersion second) (readVersion third) count :=
      fun _ index _ => (hall index).2
    rw [compare_versions_releases (Nat.le_max_left _ _) (Nat.le_max_right _ _) (hfirst _)] at h
    rw [compare_versions_releases (Nat.le_max_left _ _) (Nat.le_max_right _ _) (hsecond _)] at h'
    rw [compare_versions_releases (Nat.le_max_left _ _) (Nat.le_max_right _ _)
      ((hfirst _).trans (hsecond _))]
    exact compare_releases_trans h h'
  · -- the first part that tells any two neighbours apart
    obtain ⟨index, hdiffer, hfirst⟩ := exists_first (not_forall.mp hall)
    have hlow : Alike (readVersion first) (readVersion second) index :=
      fun earlier hearlier => (hfirst earlier hearlier).1
    have hhigh : Alike (readVersion second) (readVersion third) index :=
      fun earlier hearlier => (hfirst earlier hearlier).2
    -- the third is not below the first two
    have hca : compareVersions second first ≠ .lt := by
      rw [compare_versions_swap, ne_eq, Ordering.swap_eq_lt]
      exact h
    have hcb : compareVersions third second ≠ .lt := by
      rw [compare_versions_swap, ne_eq, Ordering.swap_eq_lt]
      exact h'
    rw [compare_versions_alike hlow] at h
    rw [compare_versions_alike hhigh] at h'
    rw [compare_versions_alike hlow.symm] at hca
    rw [compare_versions_alike hhigh.symm] at hcb
    rw [compare_versions_alike (hlow.trans hhigh)]
    obtain hpart | hbetween | hbetween | hbetween :=
      compare_part_trans (ne_gt_of_then h) (ne_gt_of_then h') hdiffer
    · rw [hpart]
      exact nofun
    · intro hwrong
      refine hplaced ⟨index, hlow, hhigh, hbetween, ?_⟩
      rw [hwrong]
      exact nofun
    · exact absurd ⟨index, hhigh, (hlow.trans hhigh).symm, hbetween, hca⟩ hplaced'
    · exact absurd ⟨index, (hlow.trans hhigh).symm, hlow, hbetween, hcb⟩ hplaced''

theorem strict_of_transitive {pool : String → Prop} (htransitive : ∀ a b c, pool a → pool b →
      pool c → compareVersions a b ≠ .gt → compareVersions b c ≠ .gt → compareVersions a c ≠ .gt)
    {a b c : String} (ha : pool a) (hb : pool b) (hc : pool c) (hab : compareVersions a b = .lt)
    (hbc : compareVersions b c = .lt) : compareVersions a c = .lt := by
  have hle : compareVersions a c ≠ .gt :=
    htransitive a b c ha hb hc (by rw [hab]; exact nofun) (by rw [hbc]; exact nofun)
  obtain hlt | heq := lt_or_eq_of_ne_gt hle
  · exact hlt
  · -- else `c` would not be above `b`
    have hback : compareVersions c b ≠ .gt := by
      refine htransitive c a b hc ha hb ?_ (by rw [hab]; exact nofun)
      rw [compare_versions_swap, heq]
      exact nofun
    rw [compare_versions_swap, hbc] at hback
    exact absurd rfl hback

theorem version_is_newer_iff {candidate current : String} :
    versionIsNewer candidate current = true ↔ compareVersions current candidate = .lt := by
  rw [compare_versions_swap]
  unfold versionIsNewer
  cases compareVersions candidate current <;> simp

/-- `compare_versions` orders the versions of a pool exactly if no three of them are misplaced. -/
theorem versions_preordered_iff (pool : String → Prop) :
    PreorderedOn pool ↔ ∀ low middle high, pool low → pool middle → pool high →
      ¬ Misplaced (readVersion low) (readVersion middle) (readVersion high) := by
  constructor
  · intro h low middle high hlow hmiddle hhigh hmisplaced
    obtain ⟨hfirst, hsecond, hwrong⟩ := misplaced_not_transitive hmisplaced
    exact hwrong (h.strict low middle high hlow hmiddle hhigh hfirst hsecond)
  · intro h
    have htransitive : ∀ a b c, pool a → pool b → pool c → compareVersions a b ≠ .gt →
        compareVersions b c ≠ .gt → compareVersions a c ≠ .gt := by
      intro a b c ha hb hc hab hbc
      exact compare_versions_trans hab hbc (h a b c ha hb hc) (h b c a hb hc ha)
        (h c a b hc ha hb)
    refine ⟨fun a b _ _ => compare_versions_swap a b, htransitive, ?_, ?_⟩
    · intro a b c ha hb hc hab hbc
      exact strict_of_transitive htransitive ha hb hc hab hbc
    · intro version hcircle
      have hnewer : ∀ last, Relation.TransGen (fun current candidate =>
          pool current ∧ pool candidate ∧ versionIsNewer candidate current) version last →
          pool version ∧ pool last ∧ compareVersions version last = .lt := by
        intro last hchain
        induction hchain with
        | single hstep => exact ⟨hstep.1, hstep.2.1, version_is_newer_iff.mp hstep.2.2⟩
        | tail _ hstep ih =>
            obtain ⟨hversion, hmiddle, hbefore⟩ := ih
            exact ⟨hversion, hstep.2.1, strict_of_transitive htransitive hversion hmiddle
              hstep.2.1 hbefore (version_is_newer_iff.mp hstep.2.2)⟩
      have hself := (hnewer version hcircle).2.2
      rw [compare_versions_self] at hself
      cases hself

/-- Releases that are each newer than the one before, in a circle: `10` is more than `9`, `1a` is
behind `10` as a text and so is `9` behind `1a`. -/
theorem accepted_versions_circle :
    ¬ PreorderedOn (fun version => validateVersion version = .ok ()) ∧
      ∀ version ∈ ["9", "10", "1a"], validateVersion version = .ok () ∧
        versionIsNewer "10" "9" = true ∧ versionIsNewer "1a" "10" = true ∧
        versionIsNewer "9" "1a" = true := by
  constructor
  · intro h
    have hcircle := h.strict "9" "10" "1a" (by decide +kernel) (by decide +kernel)
      (by decide +kernel) (by decide +kernel) (by decide +kernel)
    revert hcircle
    decide +kernel
  · decide +kernel

end PamDesktop.Updater.Versions
