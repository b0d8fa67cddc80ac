import PamDesktop.Packager.Materialize

/-!
# Bundle exclusions

`validate` compares the exclusions of a manifest as texts, `excluded_path` as components of paths.
`exclusions_exact_iff` says for which accepted lists the exclusions remove what they name and
nothing that the application needs.
-/

namespace PamDesktop.Packager.Materialize

open Foundations Protocol

/-- The paths that `validate` declares required. -/
def requiredPaths : List String :=
  ["app.php", "composer.json", "composer.lock", "resources", "vendor"]

/-- The exclusion is spelled with a `.` in front. -/
def LeadingDot (build : Build) (excluded : String) : Prop :=
  ((osString excluded).splitOnP build.separator).head? = some [46]

instance (build : Build) (excluded : String) : Decidable (LeadingDot build excluded) :=
  inferInstanceAs (Decidable (_ = _))

/-- The exclusion names these components, `.` and separators at the end left out. -/
def Names (build : Build) (excluded : String) (names : List OsString) : Prop :=
  projectComponents build excluded = some names ∧ names ≠ []

/-- What is excluded, apart from the rules that are built in, is what the exclusions name, and
no required path is excluded. -/
structure ExclusionsExact (build : Build) (excludes : List String) : Prop where
  exact : ∀ relative, excludedPath build relative excludes = true ↔
    excludedPath build relative [] = true ∨
      ∃ excluded ∈ excludes, ∃ names, Names build excluded names ∧ names <+: relative
  required : ∀ path ∈ requiredPaths, excludedPath build [osString path] excludes = false

/-- What an exclusion names that has a `.` in front is excluded already, and no other exclusion
names a required path. -/
structure PlainlySpelled (build : Build) (excludes : List String) : Prop where
  dotted : ∀ excluded ∈ excludes, LeadingDot build excluded → ∀ names, Names build excluded names →
    excludedPath build names [] = true ∨ ∃ other ∈ excludes, ¬ LeadingDot build other ∧
      ∃ names', Names build other names' ∧ names' <+: names
  required : ∀ excluded ∈ excludes, ¬ LeadingDot build excluded → ∀ path ∈ requiredPaths,
    ¬ Names build excluded [osString path]

section Exclusions

variable {build : Build}

/-- The components that `excluded_path` compares. -/
theorem normal_components_eq (build : Build) (excluded : String) :
    normalComponents build.separator (build.operatingSystem == .windows) (osString excluded) =
      if LeadingDot build excluded then none else projectComponents build excluded := by
  unfold normalComponents projectComponents
  dsimp only
  by_cases hdot : LeadingDot build excluded
  · rw [if_pos hdot, if_pos (.inr (.inl hdot))]
  · rw [if_neg hdot]
    refine if_congr ?_ rfl rfl
    constructor
    · rintro (h | h | h | h)
      · exact .inl h
      · exact absurd h hdot
      · exact .inr (.inl h)
      · exact .inr (.inr (List.contains_iff_mem.mpr h))
    · rintro (h | h | h)
      · exact .inl h
      · exact .inr (.inr (.inl h))
      · exact .inr (.inr (.inr (List.contains_iff_mem.mp h)))

/-- An accepted exclusion without a `.` in front names something. -/
theorem names_of_plain {excluded : String} {names : List OsString}
    (h : projectComponents build excluded = some names) (hdot : ¬ LeadingDot build excluded) :
    Names build excluded names := by
  refine ⟨h, ?_⟩
  unfold projectComponents at h
  dsimp only at h
  split at h
  · cases h
  · rename_i hvalid
    push Not at hvalid
    obtain rfl := Option.some.inj h
    cases hsegments : (osString excluded).splitOnP build.separator with
    | nil => exact absurd hsegments (List.splitOnP_ne_nil _ _)
    | cons first rest =>
        rw [hsegments] at hvalid
        have hroot : first ≠ [] := fun heq => hvalid.1 (congrArg some heq)
        have hfirst : first ≠ [46] := fun heq => hdot (by rw [LeadingDot, hsegments, heq]; rfl)
        intro hnone
        have := List.filter_eq_nil_iff.mp hnone first List.mem_cons_self
        exact this (decide_eq_true ⟨hroot, hfirst⟩)

/-- What the configured exclusions exclude. -/
theorem excluded_path_iff (relative : List OsString) (excludes : List String) :
    excludedPath build relative excludes = true ↔ excludedPath build relative [] = true ∨
      ∃ excluded ∈ excludes, ¬ LeadingDot build excluded ∧ ∃ names,
        Names build excluded names ∧ names <+: relative := by
  unfold excludedPath
  dsimp only
  rw [List.any_nil, Bool.or_false, Bool.or_eq_true]
  refine or_congr_right ?_
  rw [List.any_eq_true]
  refine exists_congr fun excluded => and_congr_right fun _ => ?_
  rw [normal_components_eq]
  by_cases hdot : LeadingDot build excluded
  · simp [hdot]
  · rw [if_neg hdot]
    cases hnames : projectComponents build excluded with
    | none => simp [Names, hnames]
    | some names =>
        have hnamed := names_of_plain hnames hdot
        constructor
        · intro h
          exact ⟨hdot, names, hnamed, List.isPrefixOf_iff_prefix.mp h⟩
        · intro h
          obtain ⟨_, names', hnames', hbelow⟩ := h
          obtain rfl := Option.some.inj (hnames.symm.trans hnames'.1)
          exact List.isPrefixOf_iff_prefix.mpr hbelow

/-- The rules that are built in exclude what is below what they exclude. -/
theorem built_in_below {names relative : List OsString} (h : excludedPath build names [] = true)
    (hbelow : names <+: relative) : excludedPath build relative [] = true := by
  obtain ⟨rest, rfl⟩ := hbelow
  unfold excludedPath at h ⊢
  simp only [List.any_nil, Bool.or_false, Bool.or_eq_true, Bool.and_eq_true] at h ⊢
  cases names with
  | nil => simp at h
  | cons first names =>
      obtain (hname | ⟨hhead, hsecond⟩) | ⟨hvendor, hhead⟩ := h
      · refine .inl (.inl ?_)
        rw [List.any_append, hname]
        rfl
      · refine .inl (.inr ⟨hhead, ?_⟩)
        cases names with
        | nil => cases hsecond
        | cons second names => exact hsecond
      · refine .inr ⟨?_, hhead⟩
        rw [List.contains_iff_mem] at hvendor ⊢
        exact List.mem_append_left rest hvendor

/-- No required path is excluded by the rules that are built in. -/
theorem required_not_built_in (build : Build) :
    ∀ path ∈ requiredPaths, excludedPath build [osString path] [] = false := by
  intro path hpath
  have hnames : ∀ path ∈ requiredPaths, excludedName (osString path) = false := by
    decide +kernel
  unfold excludedPath
  simp [hnames path hpath]

end Exclusions

/-- Exclusions do what they say exactly if they are plainly spelled. -/
theorem exclusions_exact_iff (build : Build) (excludes : List String) :
    ExclusionsExact build excludes ↔ PlainlySpelled build excludes := by
  constructor
  · intro hexact
    constructor
    · intro excluded hexcluded _ names hnames
      have hnamed := (hexact.exact names).mpr
        (.inr ⟨excluded, hexcluded, names, hnames, List.prefix_rfl⟩)
      exact (excluded_path_iff names _).mp hnamed
    · intro excluded hexcluded hplain path hpath hnames
      have hnamed := (excluded_path_iff [osString path] _).mpr
        (.inr ⟨excluded, hexcluded, hplain, _, hnames, List.prefix_rfl⟩)
      rw [hexact.required path hpath] at hnamed
      cases hnamed
  · intro hplain
    constructor
    · intro relative
      rw [excluded_path_iff]
      constructor
      · rintro (hbuilt | ⟨excluded, hexcluded, _, names, hnames⟩)
        · exact .inl hbuilt
        · exact .inr ⟨excluded, hexcluded, names, hnames⟩
      · rintro (hbuilt | ⟨excluded, hexcluded, names, hnames, hbelow⟩)
        · exact .inl hbuilt
        · by_cases hdot : LeadingDot build excluded
          · obtain hbuilt | ⟨other, hother, hundotted, names', hnames', hbelow'⟩ :=
              hplain.dotted excluded hexcluded hdot names hnames
            · exact .inl (built_in_below hbuilt hbelow)
            · exact .inr ⟨other, hother, hundotted, names', hnames', hbelow'.trans hbelow⟩
          · exact .inr ⟨excluded, hexcluded, hdot, names, hnames, hbelow⟩
    · intro path hpath
      refine Bool.eq_false_iff.mpr fun hnamed => ?_
      obtain hbuilt | ⟨excluded, hexcluded, hundotted, names, hnames, hbelow⟩ :=
        (excluded_path_iff _ _).mp hnamed
      · rw [required_not_built_in build path hpath] at hbuilt
        cases hbuilt
      · obtain ⟨first, rest, rfl⟩ := List.exists_cons_of_ne_nil hnames.2
        obtain ⟨rfl, hrest⟩ := List.cons_prefix_cons.mp hbelow
        obtain rfl := List.prefix_nil.mp hrest
        exact hplain.required excluded hexcluded hundotted path hpath hnames

/-- A manifest with two exclusions that are not spelled plainly. -/
def misspelledManifest : ApplicationManifest :=
  { (galleryBootstrap "resources/index.html").manifest with
    bundleExcludes := ["./secrets", "app.php/"] }

/-- The manifest is accepted; the bundle has the secrets and no application. -/
theorem exclusions_misspelled :
    misspelledManifest.validate galleryPackaging.toBuild = .ok () ∧
      Names galleryPackaging.toBuild "./secrets" [osString "secrets"] ∧
      excludedPath galleryPackaging.toBuild [osString "secrets"]
        misspelledManifest.bundleExcludes = false ∧
      excludedPath galleryPackaging.toBuild [osString "app.php"]
        misspelledManifest.bundleExcludes = true ∧
      ¬ ExclusionsExact galleryPackaging.toBuild misspelledManifest.bundleExcludes := by
  have happ : excludedPath galleryPackaging.toBuild [osString "app.php"]
      misspelledManifest.bundleExcludes = true := by decide +kernel
  refine ⟨by decide +kernel, ⟨by decide +kernel, nofun⟩, by decide +kernel, happ, fun hexact => ?_⟩
  have hrequired := hexact.required "app.php" (List.mem_cons_self ..)
  rw [happ] at hrequired
  cases hrequired

end PamDesktop.Packager.Materialize
