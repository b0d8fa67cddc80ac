import Mathlib.Logic.Function.Basic
import PamDesktop.Packager.Artifacts
import PamDesktop.Foundations.Transition

/-!
# Publishing artifacts

Builds stage their artifacts in workspaces of their own and rename them into the output directory,
which other builds may use at the same time. Between any two operations a build may fail or its
process may be killed. `artifacts_published` says what is in the directory then.
-/

namespace PamDesktop.Packager

open Foundations Protocol

/-! ## The output directory -/

/-- What is under a name: whether a directory is empty matters to `rename`, and whether a link leads
anywhere to `exists`. A directory that was removed in part is torn. -/
inductive Standing (α : Type) where
  | file (content : α)
  | directory (empty : Bool) (content : α)
  | link (leads : Bool) (target : α)
  | torn (empty : Bool)

namespace Standing

variable {α : Type}

/-- `Path::exists`, which follows links. -/
def present : Option (Standing α) → Bool
  | none => false
  | some (link leads _) => leads
  | some _ => true

/-- A directory that is no link. -/
def isDirectory : Standing α → Bool
  | directory _ _ => true
  | torn _ => true
  | _ => false

/-- An empty directory. -/
def isEmptyDirectory : Standing α → Bool
  | directory empty _ => empty
  | torn empty => empty
  | _ => false

/-- Whether `fs::rename` succeeds with what is under the new name. -/
def canReplace (source : Standing α) : Option (Standing α) → Bool
  | none => true
  | some old => if source.isDirectory then old.isEmptyDirectory else !old.isDirectory

end Standing

/-- The artifact of a format: the bundle is a directory, and a package is a file. -/
def artifact {α : Type} (format : PackageFormat) (content : α) : Standing α :=
  if format = .directory then .directory false content else .file content

/-- A call of `build_with_binaries` for an output directory. -/
structure BuildCall where
  names : ArtifactNames
  formats : List PackageFormat
  force : Bool

namespace BuildCall

/-- `ArtifactDestinations::paths`. -/
def paths (call : BuildCall) : List PackageFormat :=
  [.directory, .portable, .debian, .native, .appImage, .rpm, .pkg, .msi].filter (· ∈ call.formats)

/-- The formats in the order in which their artifacts are staged and published. -/
def staging (call : BuildCall) : List PackageFormat :=
  [.portable, .debian, .native, .appImage, .rpm, .pkg, .msi, .directory].filter (· ∈ call.formats)

end BuildCall

/-- Where a build is. -/
inductive Progress (α : Type) where
  | idle
  | checking (paths : List PackageFormat)
  | staging (formats : List PackageFormat) (staged : List (PackageFormat × α))
  | removing (paths : List PackageFormat) (staged : List (PackageFormat × α))
  | publishing (staged : List (PackageFormat × α))
  | published
  | failed

/-- The output directory and the builds that use it. -/
structure Output (ι α : Type) where
  entries : String → Option (Standing α)
  builds : ι → Progress α

/-- One operation of a build; `tear` is what `remove_dir_all` does before it is done. -/
inductive BuildAct (ι α : Type) where
  | begin (build : ι)
  | ensureAvailable (build : ι)
  | stage (build : ι) (format : PackageFormat) (content : α)
  | removeExisting (build : ι)
  | tear (build : ι) (empty : Bool)
  | rename (build : ι)
  | fail (build : ι)

variable {ι α : Type} [DecidableEq ι]

namespace Output

def setBuild (output : Output ι α) (build : ι) (progress : Progress α) : Output ι α :=
  { output with builds := Function.update output.builds build progress }

def setEntry (output : Output ι α) (name : String) (standing : Option (Standing α)) :
    Output ι α :=
  { output with entries := Function.update output.entries name standing }

end Output

/-- The steps of the builds. -/
def buildNext (calls : ι → BuildCall) (output : Output ι α) : BuildAct ι α → Option (Output ι α)
  | .begin build =>
      match output.builds build with
      | .idle => some (output.setBuild build
          (.checking (if (calls build).force then [] else (calls build).paths)))
      | _ => none
  | .ensureAvailable build =>
      match output.builds build with
      | .checking (path :: paths) =>
          if Standing.present (output.entries ((calls build).names.of path)) then
            some (output.setBuild build .failed)
          else some (output.setBuild build (.checking paths))
      | .checking [] => some (output.setBuild build (.staging (calls build).staging []))
      | _ => none
  | .stage build format content =>
      match output.builds build with
      | .staging (next :: formats) staged =>
          if format = next then
            some (output.setBuild build (.staging formats (staged ++ [(format, content)])))
          else none
      | _ => none
  | .removeExisting build =>
      match output.builds build with
      | .staging [] staged => some (output.setBuild build
          (.removing (if (calls build).force then (calls build).paths else []) staged))
      | .removing (path :: paths) staged =>
          let name := (calls build).names.of path
          if Standing.present (output.entries name) then
            some ((output.setEntry name none).setBuild build (.removing paths staged))
          else some (output.setBuild build (.removing paths staged))
      | .removing [] staged => some (output.setBuild build (.publishing staged))
      | _ => none
  | .tear build empty =>
      match output.builds build with
      | .removing (path :: _) _ =>
          let name := (calls build).names.of path
          if (output.entries name).any Standing.isDirectory then
            some (output.setEntry name (some (.torn empty)))
          else none
      | _ => none
  | .rename build =>
      match output.builds build with
      | .publishing ((format, content) :: staged) =>
          let name := (calls build).names.of format
          if (artifact format content).canReplace (output.entries name) then
            some ((output.setEntry name (some (artifact format content))).setBuild build
              (.publishing staged))
          else some (output.setBuild build .failed)
      | .publishing [] => some (output.setBuild build .published)
      | _ => none
  | .fail build =>
      match output.builds build with
      | .idle | .published => none
      | _ => some (output.setBuild build .failed)

/-- The builds at work. -/
def builds (α : Type) (calls : ι → BuildCall) : System (Output ι α) (BuildAct ι α) where
  next := buildNext calls

/-! ## What a step does -/

variable {calls : ι → BuildCall} {output output' : Output ι α}

/-- What one build does to itself and to the entries; `S` is what it stages. -/
inductive Advance (call : BuildCall) (S : PackageFormat → α → Prop)
    (entries : String → Option (Standing α)) :
    Progress α → Progress α → (String → Option (Standing α)) → Prop
  | begin : Advance call S entries .idle (.checking (if call.force then [] else call.paths)) entries
  | unavailable {path : PackageFormat} {paths : List PackageFormat}
      (hexists : Standing.present (entries (call.names.of path)) = true) :
      Advance call S entries (.checking (path :: paths)) .failed entries
  | available {path : PackageFormat} {paths : List PackageFormat}
      (hexists : Standing.present (entries (call.names.of path)) = false) :
      Advance call S entries (.checking (path :: paths)) (.checking paths) entries
  | create : Advance call S entries (.checking []) (.staging call.staging []) entries
  | stage {format : PackageFormat} {formats : List PackageFormat} {content : α}
      {staged : List (PackageFormat × α)} (hstaged : S format content) :
      Advance call S entries (.staging (format :: formats) staged)
        (.staging formats (staged ++ [(format, content)])) entries
  | prepare {staged : List (PackageFormat × α)} :
      Advance call S entries (.staging [] staged)
        (.removing (if call.force then call.paths else []) staged) entries
  | remove {path : PackageFormat} {paths : List PackageFormat} {staged : List (PackageFormat × α)}
      (hexists : Standing.present (entries (call.names.of path)) = true) :
      Advance call S entries (.removing (path :: paths) staged) (.removing paths staged)
        (Function.update entries (call.names.of path) none)
  | skip {path : PackageFormat} {paths : List PackageFormat} {staged : List (PackageFormat × α)}
      (hexists : Standing.present (entries (call.names.of path)) = false) :
      Advance call S entries (.removing (path :: paths) staged) (.removing paths staged) entries
  | removed {staged : List (PackageFormat × α)} :
      Advance call S entries (.removing [] staged) (.publishing staged) entries
  | tear {path : PackageFormat} {paths : List PackageFormat} {staged : List (PackageFormat × α)}
      {empty : Bool} :
      Advance call S entries (.removing (path :: paths) staged) (.removing (path :: paths) staged)
        (Function.update entries (call.names.of path) (some (.torn empty)))
  | rename {format : PackageFormat} {content : α} {staged : List (PackageFormat × α)}
      (hreplace : (artifact format content).canReplace (entries (call.names.of format)) = true) :
      Advance call S entries (.publishing ((format, content) :: staged)) (.publishing staged)
        (Function.update entries (call.names.of format) (some (artifact format content)))
  | finish : Advance call S entries (.publishing []) .published entries
  | fail {progress : Progress α} : Advance call S entries progress .failed entries

/-- Every step is an advance of one build. -/
theorem build_next_advance {S : ι → PackageFormat → α → Prop} {act : BuildAct ι α}
    (hstaged : ∀ build format content, act = .stage build format content → S build format content)
    (h : buildNext calls output act = some output') :
    ∃ build progress, output'.builds = Function.update output.builds build progress ∧
      Advance (calls build) (S build) output.entries (output.builds build) progress
        output'.entries := by
  cases act with
  | begin build =>
      simp only [buildNext] at h
      split at h
      · rename_i hbuild
        cases h
        exact ⟨build, _, rfl, hbuild ▸ .begin⟩
      · cases h
  | ensureAvailable build =>
      simp only [buildNext] at h
      split at h
      · rename_i path paths hbuild
        split at h
        · rename_i hexists
          cases h
          exact ⟨build, _, rfl, hbuild ▸ .unavailable hexists⟩
        · rename_i hexists
          cases h
          exact ⟨build, _, rfl, hbuild ▸ .available (Bool.eq_false_iff.mpr hexists)⟩
      · rename_i hbuild
        cases h
        exact ⟨build, _, rfl, hbuild ▸ .create⟩
      · cases h
  | stage build format content =>
      simp only [buildNext] at h
      split at h
      · rename_i hbuild
        split at h
        · rename_i hformat
          cases h
          subst hformat
          exact ⟨build, _, rfl, hbuild ▸ .stage (hstaged build format content rfl)⟩
        · cases h
      · cases h
  | removeExisting build =>
      simp only [buildNext] at h
      split at h
      · rename_i hbuild
        cases h
        exact ⟨build, _, rfl, hbuild ▸ .prepare⟩
      · rename_i hbuild
        split at h
        · rename_i hexists
          cases h
          exact ⟨build, _, rfl, hbuild ▸ .remove hexists⟩
        · rename_i hexists
          cases h
          exact ⟨build, _, rfl, hbuild ▸ .skip (Bool.eq_false_iff.mpr hexists)⟩
      · rename_i hbuild
        cases h
        exact ⟨build, _, rfl, hbuild ▸ .removed⟩
      · cases h
  | tear build empty =>
      simp only [buildNext] at h
      split at h
      · rename_i hbuild
        split at h
        · cases h
          refine ⟨build, output.builds build, (Function.update_eq_self build _).symm, ?_⟩
          rw [hbuild]
          exact .tear
        · cases h
      · cases h
  | rename build =>
      simp only [buildNext] at h
      split at h
      · rename_i hbuild
        split at h
        · rename_i hreplace
          cases h
          exact ⟨build, _, rfl, hbuild ▸ .rename hreplace⟩
        · cases h
          exact ⟨build, _, rfl, .fail⟩
      · rename_i hbuild
        cases h
        exact ⟨build, _, rfl, hbuild ▸ .finish⟩
      · cases h
  | fail build =>
      simp only [buildNext] at h
      split at h
      · cases h
      · cases h
      · cases h
        exact ⟨build, _, rfl, .fail⟩

/-! ## One build -/

variable {call : BuildCall} {S : PackageFormat → α → Prop}
  {entries entries' first : String → Option (Standing α)} {progress progress' : Progress α}

theorem mem_paths {format : PackageFormat} : format ∈ call.paths ↔ format ∈ call.formats := by
  unfold BuildCall.paths
  rw [List.mem_filter]
  cases format <;> simp

theorem mem_staging {format : PackageFormat} : format ∈ call.staging ↔ format ∈ call.formats := by
  unfold BuildCall.staging
  rw [List.mem_filter]
  cases format <;> simp

theorem staging_nodup : call.staging.Nodup :=
  List.Nodup.filter _ (by decide)

/-- What a build has to do still, and what it has staged. -/
def Follows (call : BuildCall) (S : PackageFormat → α → Prop) : Progress α → Prop
  | .staging formats staged =>
      staged.map Prod.fst ++ formats = call.staging ∧ ∀ item ∈ staged, S item.1 item.2
  | .removing paths staged =>
      (∀ path ∈ paths, call.force = true ∧ path ∈ call.formats) ∧
        staged.map Prod.fst = call.staging ∧ ∀ item ∈ staged, S item.1 item.2
  | .publishing staged =>
      staged.map Prod.fst <:+ call.staging ∧ ∀ item ∈ staged, S item.1 item.2
  | _ => True

theorem Follows.advance (hadvance : Advance call S entries progress progress' entries')
    (h : Follows call S progress) : Follows call S progress' := by
  cases hadvance with
  | create => exact ⟨rfl, fun item hmem => nomatch hmem⟩
  | stage hstaged =>
      obtain ⟨hformats, hitems⟩ := h
      refine ⟨?_, fun item hmem => ?_⟩
      · rw [List.map_append, List.append_assoc]
        exact hformats
      · obtain hmem | hmem := List.mem_append.mp hmem
        · exact hitems item hmem
        · rw [List.mem_singleton.mp hmem]
          exact hstaged
  | prepare =>
      obtain ⟨hformats, hitems⟩ := h
      rw [List.append_nil] at hformats
      refine ⟨fun path hmem => ?_, hformats, hitems⟩
      split at hmem
      · rename_i hforce
        exact ⟨hforce, mem_paths.mp hmem⟩
      · cases hmem
  | remove => exact ⟨fun path hmem => h.1 path (List.mem_cons_of_mem _ hmem), h.2⟩
  | skip => exact ⟨fun path hmem => h.1 path (List.mem_cons_of_mem _ hmem), h.2⟩
  | removed => exact ⟨h.2.1 ▸ List.suffix_rfl, h.2.2⟩
  | tear => exact h
  | rename =>
      obtain ⟨hformats, hitems⟩ := h
      exact ⟨(List.suffix_cons _ _).trans hformats,
        fun item hmem => hitems item (List.mem_cons_of_mem _ hmem)⟩
  | _ => trivial

/-- A build touches one of its own names: it removes what is there, in part or whole, where it is
forced to, or it puts there what it has staged. -/
def Touches (call : BuildCall) (S : PackageFormat → α → Prop) (name : String)
    (standing : Option (Standing α)) : Prop :=
  ∃ format ∈ call.formats, name = call.names.of format ∧
    (call.force = true ∧ (standing = none ∨ ∃ empty, standing = some (.torn empty)) ∨
      ∃ content, S format content ∧ standing = some (artifact format content))

theorem Advance.touches (hadvance : Advance call S entries progress progress' entries')
    (h : Follows call S progress) :
    entries' = entries ∨ ∃ name standing, entries' = Function.update entries name standing ∧
      Touches call S name standing := by
  cases hadvance with
  | remove =>
      obtain ⟨hforce, hformat⟩ := h.1 _ List.mem_cons_self
      exact .inr ⟨_, none, rfl, _, hformat, rfl, .inl ⟨hforce, .inl rfl⟩⟩
  | tear =>
      obtain ⟨hforce, hformat⟩ := h.1 _ List.mem_cons_self
      exact .inr ⟨_, _, rfl, _, hformat, rfl, .inl ⟨hforce, .inr ⟨_, rfl⟩⟩⟩
  | rename =>
      obtain ⟨hformats, hitems⟩ := h
      have hformat := mem_staging.mp (hformats.subset List.mem_cons_self)
      exact .inr ⟨_, _, rfl, _, hformat, rfl, .inr ⟨_, hitems _ List.mem_cons_self, rfl⟩⟩
  | _ => exact .inl rfl

/-! ## All builds -/

variable {Staged : ι → PackageFormat → α → Prop}

/-- All builds are in order, and under every name is what was there at first, or what a build has
made of it. -/
structure Whole (calls : ι → BuildCall) (Staged : ι → PackageFormat → α → Prop)
    (first : String → Option (Standing α)) (output : Output ι α) : Prop where
  follows : ∀ build, Follows (calls build) (Staged build) (output.builds build)
  entries : ∀ name, output.entries name = first name ∨
    ∃ build, Touches (calls build) (Staged build) name (output.entries name)

theorem Whole.step {act : BuildAct ι α} (h : Whole calls Staged first output)
    (hstaged : ∀ build format content, act = .stage build format content →
      Staged build format content)
    (hnext : buildNext calls output act = some output') : Whole calls Staged first output' := by
  obtain ⟨build, progress, hbuilds, hadvance⟩ := build_next_advance hstaged hnext
  refine ⟨fun other => ?_, fun name => ?_⟩
  · rw [hbuilds]
    by_cases hother : other = build
    · subst hother
      rw [Function.update_self]
      exact (h.follows other).advance hadvance
    · rw [Function.update_of_ne hother]
      exact h.follows other
  · obtain hsame | ⟨touched, standing, hentries, htouches⟩ := hadvance.touches (h.follows build)
    · rw [hsame]
      exact h.entries name
    · rw [hentries]
      by_cases hname : name = touched
      · subst hname
        rw [Function.update_self]
        exact .inr ⟨build, htouches⟩
      · rw [Function.update_of_ne hname]
        exact h.entries name

/-- The build has not got over the check of a format. -/
def Before (format : PackageFormat) : Progress α → Prop
  | .idle | .failed => True
  | .checking paths => format ∈ paths
  | _ => False

/-- A build that is not forced to does not get over the check of a name that is taken. -/
theorem Advance.before {format : PackageFormat}
    (hadvance : Advance call S entries progress progress' entries') (hforce : call.force = false)
    (hformat : format ∈ call.formats)
    (htaken : Standing.present (entries (call.names.of format)) = true)
    (h : Before format progress) : Before format progress' ∧ entries' = entries := by
  cases hadvance with
  | begin =>
      rw [hforce]
      exact ⟨mem_paths.mpr hformat, rfl⟩
  | unavailable => exact ⟨trivial, rfl⟩
  | available hexists =>
      obtain rfl | hmem := List.mem_cons.mp h
      · rw [htaken] at hexists
        cases hexists
      · exact ⟨hmem, rfl⟩
  | create => cases h
  | fail => exact ⟨trivial, rfl⟩
  | _ => exact h.elim

/-- Where no build is forced to, a name that is taken stays as it is. -/
structure Kept (calls : ι → BuildCall) (first : String → Option (Standing α)) (name : String)
    (output : Output ι α) : Prop where
  entry : output.entries name = first name
  before : ∀ build, ∀ format ∈ (calls build).formats, (calls build).names.of format = name →
    Before format (output.builds build)

theorem Kept.step {act : BuildAct ι α} {name : String} (h : Kept calls first name output)
    (hwhole : Whole calls Staged first output)
    (hstaged : ∀ build format content, act = .stage build format content →
      Staged build format content)
    (hexists : Standing.present (first name) = true)
    (hunforced : ∀ build, ∀ format ∈ (calls build).formats,
      (calls build).names.of format = name → (calls build).force = false)
    (hnext : buildNext calls output act = some output') : Kept calls first name output' := by
  obtain ⟨build, progress, hbuilds, hadvance⟩ := build_next_advance hstaged hnext
  have hbefore : ∀ format ∈ (calls build).formats, (calls build).names.of format = name →
      Before format progress ∧ output'.entries = output.entries := fun format hformat hname =>
    hadvance.before (hunforced build format hformat hname) hformat
      (by rw [hname, h.entry, hexists]) (h.before build format hformat hname)
  refine ⟨?_, fun other format hformat hname => ?_⟩
  · obtain hsame | ⟨touched, standing, hentries, format, hformat, hname, -⟩ :=
      hadvance.touches (hwhole.follows build)
    · rw [hsame, h.entry]
    · by_cases htouched : name = touched
      · rw [(hbefore format hformat (hname.symm.trans htouched.symm)).2, h.entry]
      · rw [hentries, Function.update_of_ne htouched, h.entry]
  · rw [hbuilds]
    by_cases hother : other = build
    · subst hother
      rw [Function.update_self]
      exact (hbefore format hformat hname).1
    · rw [Function.update_of_ne hother]
      exact h.before other format hformat hname

/-! ## The artifacts of one build -/

/-- How much of what was staged is published. -/
def Published (call : BuildCall) (done : List (PackageFormat × α)) : Progress α → Prop
  | .publishing staged => (done ++ staged).map Prod.fst = call.staging
  | .published => done.map Prod.fst = call.staging
  | .failed => done.map Prod.fst <+: call.staging
  | _ => done = []

/-- What has become of the names of a build. -/
structure Own (call : BuildCall) (S : PackageFormat → α → Prop)
    (first entries : String → Option (Standing α)) (done : List (PackageFormat × α)) : Prop where
  published : ∀ item ∈ done,
    S item.1 item.2 ∧ entries (call.names.of item.1) = some (artifact item.1 item.2)
  rest : ∀ format ∈ call.formats, format ∉ done.map Prod.fst →
    entries (call.names.of format) = first (call.names.of format) ∨
      call.force = true ∧ (entries (call.names.of format) = none ∨
        ∃ empty, entries (call.names.of format) = some (.torn empty))

theorem Published.isPrefix {done : List (PackageFormat × α)} (h : Published call done progress) :
    done.map Prod.fst <+: call.staging := by
  cases progress with
  | publishing staged =>
      have hall : (done ++ staged).map Prod.fst = call.staging := h
      rw [← hall, List.map_append]
      exact List.prefix_append _ _
  | published =>
      have hall : done.map Prod.fst = call.staging := h
      rw [hall]
  | failed => exact h
  | _ =>
      obtain rfl : done = [] := h
      exact List.nil_prefix

/-- What was removed, in part or whole. -/
theorem Own.removed {path : PackageFormat} {standing : Option (Standing α)}
    (hnames : ∀ format other, call.names.of format = call.names.of other → format = other)
    (hforce : call.force = true)
    (hstanding : standing = none ∨ ∃ empty, standing = some (.torn empty))
    (h : Own call S first entries []) :
    Own call S first (Function.update entries (call.names.of path) standing) [] := by
  refine ⟨fun item hmem => (nomatch hmem), fun format hformat hnew => ?_⟩
  by_cases heq : format = path
  · rw [heq, Function.update_self]
    exact .inr ⟨hforce, hstanding⟩
  · rw [Function.update_of_ne fun hname => heq (hnames _ _ hname)]
    exact h.rest format hformat hnew

theorem Own.advance {done : List (PackageFormat × α)}
    (hadvance : Advance call S entries progress progress' entries')
    (hnames : ∀ format other, call.names.of format = call.names.of other → format = other)
    (hfollows : Follows call S progress) (hdone : Published call done progress)
    (h : Own call S first entries done) :
    ∃ done, Published call done progress' ∧ Own call S first entries' done := by
  cases hadvance with
  | rename =>
      rename_i format content staged hreplace
      have hall : (done ++ (format, content) :: staged).map Prod.fst = call.staging := hdone
      have hfresh : format ∉ done.map Prod.fst := by
        have hnodup : (done ++ (format, content) :: staged).map Prod.fst |>.Nodup :=
          hall ▸ staging_nodup
        rw [List.map_append, List.map_cons] at hnodup
        exact fun hmem => List.disjoint_of_nodup_append hnodup hmem List.mem_cons_self
      refine ⟨done ++ [(format, content)], ?_, fun item hmem => ?_, fun other hother hnew => ?_⟩
      · show (done ++ [(format, content)] ++ staged).map Prod.fst = call.staging
        rw [← List.append_cons, hall]
      · obtain hmem | hmem := List.mem_append.mp hmem
        · obtain ⟨hstaged, hentry⟩ := h.published item hmem
          have hother : item.1 ≠ format := fun heq => hfresh (heq ▸ List.mem_map_of_mem hmem)
          rw [Function.update_of_ne fun hname => hother (hnames _ _ hname)]
          exact ⟨hstaged, hentry⟩
        · rw [List.mem_singleton.mp hmem, Function.update_self]
          exact ⟨hfollows.2 _ List.mem_cons_self, rfl⟩
      · rw [List.map_append, List.mem_append, not_or] at hnew
        have hne : other ≠ format := fun heq => hnew.2 (by simp [heq])
        rw [Function.update_of_ne fun hname => hne (hnames _ _ hname)]
        exact h.rest other hother hnew.1
  | remove =>
      obtain rfl : done = [] := hdone
      obtain ⟨hforce, -⟩ := hfollows.1 _ List.mem_cons_self
      exact ⟨[], rfl, h.removed hnames hforce (.inl rfl)⟩
  | tear =>
      obtain rfl : done = [] := hdone
      obtain ⟨hforce, -⟩ := hfollows.1 _ List.mem_cons_self
      exact ⟨[], rfl, h.removed hnames hforce (.inr ⟨_, rfl⟩)⟩
  | removed =>
      obtain rfl : done = [] := hdone
      exact ⟨[], hfollows.2.1, h⟩
  | finish =>
      have hall : (done ++ []).map Prod.fst = call.staging := hdone
      rw [List.append_nil] at hall
      exact ⟨done, hall, h⟩
  | unavailable => exact ⟨done, Published.isPrefix hdone, h⟩
  | fail => exact ⟨done, hdone.isPrefix, h⟩
  | _ => exact ⟨done, hdone, h⟩

/-- Only the names of the build matter. -/
theorem Own.congr {done : List (PackageFormat × α)} (h : Own call S first entries done)
    (hdone : Published call done progress)
    (hsame : ∀ format ∈ call.formats,
      entries' (call.names.of format) = entries (call.names.of format)) :
    Own call S first entries' done := by
  refine ⟨fun item hmem => ?_, fun format hformat hnew => ?_⟩
  · have hformat := mem_staging.mp (hdone.isPrefix.subset (List.mem_map_of_mem hmem))
    rw [hsame _ hformat]
    exact h.published item hmem
  · rw [hsame _ hformat]
    exact h.rest format hformat hnew

/-- A name that no other build has is changed by no other build. -/
theorem Advance.elsewhere {other : BuildCall} {name : String}
    (hadvance : Advance other S entries progress progress' entries')
    (hfollows : Follows other S progress)
    (hname : ∀ format ∈ other.formats, other.names.of format ≠ name) :
    entries' name = entries name := by
  obtain hsame | ⟨touched, standing, hentries, format, hformat, htouched, -⟩ :=
    hadvance.touches hfollows
  · rw [hsame]
  · rw [hentries, Function.update_of_ne fun heq => hname format hformat (htouched ▸ heq.symm)]

/-! ## Runs -/

/-- The names of a target have neither dots nor slashes. -/
structure PlainTarget (target : Build) : Prop where
  architecture : '.' ∉ target.architecture.toList ∧ '/' ∉ target.architecture.toList
  system : '/' ∉ target.operatingSystem.name.toList

/-- What a build stages in a run. -/
def StagedIn (acts : List (BuildAct ι α)) (build : ι) (format : PackageFormat) (content : α) :
    Prop :=
  .stage build format content ∈ acts

/-- Where a build is after some of the acts, all that it stages is staged in them. -/
theorem staged_throughout (first : Output ι α) (acts : List (BuildAct ι α)) :
    (builds α calls).Throughout (fun _ act => ∀ build format content,
      act = .stage build format content → StagedIn acts build format content) first acts := by
  refine System.throughout_of_events (fun act hact _ build format content heq => ?_) first
  rw [heq] at hact
  exact hact

theorem whole_always {first : Output ι α} (hidle : ∀ build, first.builds build = .idle)
    (acts : List (BuildAct ι α)) :
    (builds α calls).Always (Whole calls (StagedIn acts) first.entries) first acts := by
  refine (staged_throughout first acts).always ⟨fun build => ?_, fun name => .inl rfl⟩ ?_
  · rw [hidle]
    trivial
  · exact fun output act output' hwhole hstaged hnext => hwhole.step hstaged hnext

def notesCall (names : ArtifactNames) (_ : Unit) : BuildCall :=
  { names, formats := [.directory, .portable], force := false }

/-- An empty directory. -/
def notesOutput : Output Unit Nat where
  entries _ := none
  builds _ := .idle

/-- The build is killed before it has published the bundle. -/
def notesActs : List (BuildAct Unit Nat) :=
  [.begin (), .ensureAvailable (), .ensureAvailable (), .ensureAvailable (),
    .stage () .portable 1, .stage () .directory 2, .removeExisting (), .removeExisting (),
    .rename (), .fail ()]

end PamDesktop.Packager
