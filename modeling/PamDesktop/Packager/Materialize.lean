import PamDesktop.Foundations.Serde
import PamDesktop.Shell.Project

/-!
# The application directory of a bundle

`materialize_bundle` as far as it concerns `app`: the copy of the project with its exclusions, the
Composer metadata without local repositories, the check of the plugins and the permissions. Links
are copied as what they lead to, so the bundle has none. `bundle_complete_iff` says for which
projects the bundle is accepted where the project was.
-/

namespace PamDesktop.Packager.Materialize

open Foundations Protocol Shell

/-- `CopyContext`. -/
structure CopyContext where
  projectRoot : Location
  buildOutput : Location
  excludes : List String

/-- The names that `excluded_path` passes over at any depth. -/
def excludedNames : List String :=
  [".git", ".pam", ".pamignore", "dist", "node_modules", "target"]

/-- Whether a name is excluded at any depth. -/
def excludedName (name : OsString) : Bool :=
  let name := toStringLossy name
  excludedNames.contains name || name == ".env" || ".env.".toList.isPrefixOf name.toList

/-- `excluded_path`, on the components of the path. -/
def excludedPath (build : Build) (relative : List OsString) (configured : List String) : Bool :=
  let scaffoldPluginSource :=
    relative.head? == some (osString "plugins") &&
      (relative.drop 1).head?.any (· != osString "bin")
  let nestedPackageVendor :=
    (relative.drop 1).contains (osString "vendor") && relative.head? == some (osString "vendor")
  relative.any excludedName || scaffoldPluginSource || nestedPackageVendor ||
    configured.any fun excluded =>
      match normalComponents build.separator (build.operatingSystem == .windows)
        (osString excluded) with
      | none => false
      | some names => names.isPrefixOf relative

/-! ## Copying -/

/-- The loop of `copy_directory` over the names of a directory. -/
def copyEntries (copy : OsString → Except String (Option Disk)) :
    List OsString → Except String (List (OsString × Disk))
  | [] => .ok []
  | name :: rest => do
      let copied ← copy name
      let others ← copyEntries copy rest
      match copied with
      | none => .ok others
      | some node => .ok ((name, node) :: others)

/-- `copy_project_symlink`: what the link at `source` is copied as. -/
def copyProjectSymlink (disk : Disk) (context : CopyContext)
    (copyDirectory : Location → List OsString → Except String (List (OsString × Disk)))
    (source : Location) (target : Except PathError Location) (relative : List OsString) :
    Except String Disk :=
  match target with
  | .error error =>
      .error ("cannot resolve symlink " ++ displayed source ++ ": " ++ error.text)
  | .ok canonical => do
      refuseIf (!context.projectRoot.isPrefixOf canonical &&
          relative.head? != some (osString "vendor"))
        ("bundle symlink escapes the project outside vendor: " ++ displayed source)
      refuseIf (context.buildOutput.isPrefixOf canonical)
        ("bundle symlink points into the build output: " ++ displayed source)
      match disk.find canonical with
      | some (.directory _) => do
          let entries ← copyDirectory canonical relative
          .ok (.directory entries)
      | some (.file contents mode) => .ok (.file contents mode)
      | _ => .error ("unsupported project symlink: " ++ displayed source)

/-- The body of the loop of `copy_directory`: what one entry is copied as, if it is. -/
def copyEntry (build : Build) (disk : Disk) (context : CopyContext)
    (copyDirectory : Location → List OsString → Except String (List (OsString × Disk)))
    (source : Location) (relative : List OsString) (name : OsString) :
    Except String (Option Disk) :=
  let path := source ++ [name]
  let childRelative := relative ++ [name]
  if excludedPath build childRelative context.excludes then .ok none
  else
    match disk.find path with
    | some (.directory _) =>
        if context.buildOutput.isPrefixOf path then .ok none
        else do
          let entries ← copyDirectory path childRelative
          .ok (some (.directory entries))
    | some (.file contents mode) => .ok (some (.file contents mode))
    | some (.symlink target) => do
        let node ← copyProjectSymlink disk context copyDirectory path target childRelative
        .ok (some node)
    | some .special => .error ("unsupported project file type: " ++ displayed path)
    | none => .error ("cannot inspect " ++ displayed path ++ ": " ++ PathError.notFound.text)

/-- `copy_directory`. Every `source` is resolved already, the root of the project as well as what
is below a resolved directory, so `source` is its own `canonical`. The fuel is the depth. -/
def copyDirectory (build : Build) (disk : Disk) (context : CopyContext) :
    Nat → Location → List OsString → List Location → Except String (List (OsString × Disk))
  | 0, source, _, _ => .error ("cannot read " ++ displayed source)
  | fuel + 1, source, relative, active =>
      if context.buildOutput.isPrefixOf source then .ok []
      else if active.contains source then
        .error ("bundle symlink cycle detected at " ++ displayed source)
      else
        match disk.find source with
        | some (.directory entries) =>
            copyEntries (copyEntry build disk context
              (fun next childRelative =>
                copyDirectory build disk context fuel next childRelative (source :: active))
              source relative) (entries.map Prod.fst)
        | _ =>
            .error ("cannot read " ++ displayed source ++ ": " ++ PathError.notADirectory.text)

/-- `copy_project`. -/
def copyProject (build : Build) (disk : Disk) (context : CopyContext) (fuel : Nat) :
    Except String (List (OsString × Disk)) :=
  copyDirectory build disk context fuel context.projectRoot [] []

/-! ## Composer metadata -/

/-- The member of an object, as `Value::get` finds it. -/
def member (key : String) : Json → Option Json
  | .object members => members.lookup key
  | _ => none

/-- `Value::as_str`. -/
def asStr : Json → Option String
  | .string value => some value
  | _ => none

/-- Another value for a member of an object. -/
def setMember (key : String) (value : Json) (object : List (String × Json)) :
    List (String × Json) :=
  object.map fun item => if item.1 = key then (key, value) else item

/-- `Map::remove`. -/
def removeMember (key : String) (object : List (String × Json)) : List (String × Json) :=
  object.filter fun item => item.1 != key

/-- The manifest without its repositories of type `path`. -/
def withoutPathRepositories (manifest : List (String × Json)) : List (String × Json) :=
  match manifest.lookup "repositories" with
  | some (.array repositories) =>
      match repositories.filter fun repository =>
          (member "type" repository).bind asStr != some "path" with
      | [] => removeMember "repositories" manifest
      | kept => setMember "repositories" (.array kept) manifest
  | _ => manifest

/-- A package of the lock file without a distribution of type `path`. -/
def withoutPathDistribution (package : Json) : Json :=
  if ((member "dist" package).bind (member "type")).bind asStr = some "path" then
    match package with
    | .object members => .object (removeMember "transport-options" (removeMember "dist" members))
    | other => other
  else package

/-- The lock file without distributions of type `path`. -/
def withoutPathDistributions (lock : List (String × Json)) : List (String × Json) :=
  ["packages", "packages-dev"].foldl
    (fun lock key =>
      match lock.lookup key with
      | some (.array packages) => setMember key (.array (packages.map withoutPathDistribution)) lock
      | _ => lock)
    lock

/-- What the packager runs on: the target, the JSON parser and the rest of `materialize_bundle`,
which writes outside `app`. -/
structure Packaging extends Platform where
  parseJson : List UInt8 → Except String Json
  outside : Bootstrap → Except String Unit

/-- `read_json_object`. -/
def readJsonObject (packaging : Packaging) (app : Location) (entries : List (OsString × Disk))
    (name : String) : Except String (List (String × Json)) :=
  match (Disk.directory entries).child (osString name) with
  | some (.file source _) =>
      match packaging.parseJson source with
      | .error error =>
          .error ("invalid Composer metadata " ++ displayJoined app name ++ ": " ++ error)
      | .ok (.object members) => .ok members
      | .ok _ => .error ("Composer metadata must be an object: " ++ displayJoined app name)
  | _ =>
      .error ("cannot read Composer metadata " ++ displayJoined app name ++ ": " ++
        PathError.notFound.text)

/-- `fs::write` over a file that is there: its mode stays. -/
def overwrite (contents : List UInt8) : Disk → Disk
  | .file _ mode => .file contents mode
  | node => node

/-- `write_json_object`. -/
def writeJsonObject (name : String) (object : List (String × Json))
    (entries : List (OsString × Disk)) : List (OsString × Disk) :=
  let encoded := textBytes (Json.pretty escapeChar [] (.object object)) ++ [10]
  entries.map fun item =>
    (item.1, if item.1 = osString name then overwrite encoded item.2 else item.2)

/-- `sanitize_composer_metadata`. -/
def sanitizeComposerMetadata (packaging : Packaging) (app : Location)
    (entries : List (OsString × Disk)) : Except String (List (OsString × Disk)) := do
  let manifest ← readJsonObject packaging app entries "composer.json"
  let entries := writeJsonObject "composer.json" (withoutPathRepositories manifest) entries
  if !Disk.isFile ((Disk.directory entries).child (osString "composer.lock")) then .ok entries
  else do
    let lock ← readJsonObject packaging app entries "composer.lock"
    .ok (writeJsonObject "composer.lock" (withoutPathDistributions lock) entries)

/-! ## The rest -/

/-- The check of one plugin in `materialize_bundle`. -/
def checkPlugin (build : Build) (app : Location) (entries : List (OsString × Disk))
    (plugin : RustPluginConfig) : Except String Unit :=
  let isBundled := isFileAt build (.directory entries) []
  let executable :=
    if !isBundled plugin.executable && exeSuffix build != "" then
      plugin.executable ++ exeSuffix build
    else plugin.executable
  refuseIf (!isBundled executable)
    ("Rust plugin " ++ debugText plugin.id ++ " was excluded from the application bundle: " ++
      displayJoined app executable)

/-- Whether `normalize_permissions` makes the file executable: it is below a directory `bin`, is
itself called so, or ends in `.sh`. -/
def executablePath (relative : List OsString) : Bool :=
  relative.contains (osString "bin") || relative.getLast?.bind extension == some (osString "sh")

mutual

/-- `visit` of `normalize_permissions`, for the modes of files. -/
def normalizePermissions (relative : List OsString) : Disk → Disk
  | .file contents _ => .file contents (if executablePath relative then 0o755 else 0o644)
  | .directory entries => .directory (normalizeEntries relative entries)
  | .symlink target => .symlink target
  | .special => .special
termination_by structural node => node

def normalizeEntries (relative : List OsString) : List (OsString × Disk) → List (OsString × Disk)
  | [] => []
  | item :: rest => normalizeEntry relative item :: normalizeEntries relative rest
termination_by structural entries => entries

def normalizeEntry (relative : List OsString) : OsString × Disk → OsString × Disk
  | (name, node) => (name, normalizePermissions (relative ++ [name]) node)
termination_by structural item => item

end

/-- The context that `materialize_bundle` copies with. -/
def copyContext (project : Project) (bootstrap : Bootstrap) (output : Location) : CopyContext where
  projectRoot := project.root
  buildOutput := output
  excludes := bootstrap.manifest.bundleExcludes

/-- `materialize_bundle`: the directory `app` of the bundle, which is built at `app`. -/
def materializeBundle (packaging : Packaging) (disk : Disk) (fuel : Nat) (project : Project)
    (bootstrap : Bootstrap) (app output : Location) : Except String Disk := do
  let copied ← copyProject packaging.toBuild disk (copyContext project bootstrap output) fuel
  let entries ← sanitizeComposerMetadata packaging app copied
  bootstrap.rustPlugins.forM (checkPlugin packaging.toBuild app entries)
  packaging.outside bootstrap
  let permissions :=
    if packaging.operatingSystem = .windows then Disk.directory entries
    else normalizePermissions [osString "app"] (.directory entries)
  .ok permissions

/-! ## What is copied -/

section Copying

variable {build : Build} {disk : Disk} {context : CopyContext}

/-- Nothing on the way from a directory of the project keeps a path out of the bundle: `relative`
is where the directory stands in the bundle. -/
structure Kept (build : Build) (disk : Disk) (context : CopyContext) (source : Location)
    (relative names : List OsString) : Prop where
  included : ∀ front, front ≠ [] → front <+: names →
    excludedPath build (relative ++ front) context.excludes = false
  outside : ∀ front place, front <+: names → front ≠ names →
    disk.canonicalize source front = .ok place → ¬ context.buildOutput <+: place

/-- The node is what the files below a place of the project are copied as. -/
structure Copied (build : Build) (disk : Disk) (context : CopyContext) (source : Location)
    (relative : List OsString) (node : Disk) : Prop where
  files : ∀ names contents mode, node.find names = some (.file contents mode) ↔
    (∃ place, disk.canonicalize source names = .ok place ∧
      disk.find place = some (.file contents mode)) ∧
    Kept build disk context source relative names
  noLinks : node.NoLinks

theorem kept_nil (source : Location) (relative : List OsString) :
    Kept build disk context source relative [] where
  included _ hne hfront := absurd (List.prefix_nil.mp hfront) hne
  outside _ _ hfront hne := absurd (List.prefix_nil.mp hfront) hne

theorem kept_cons {source next : Location} {relative rest : List OsString} {name : OsString}
    (hnext : disk.follow source name = .ok next) :
    Kept build disk context source relative (name :: rest) ↔
      ¬ context.buildOutput <+: source ∧
      excludedPath build (relative ++ [name]) context.excludes = false ∧
      Kept build disk context next (relative ++ [name]) rest := by
  constructor
  · intro h
    refine ⟨h.outside [] source List.nil_prefix (by simp) rfl, ?_, ?_, ?_⟩
    · exact h.included [name] (by simp) (List.cons_prefix_cons.mpr ⟨rfl, List.nil_prefix⟩)
    · intro front _ hfront
      rw [← List.append_cons]
      exact h.included (name :: front) (by simp) (List.cons_prefix_cons.mpr ⟨rfl, hfront⟩)
    · intro front place hfront hne hplace
      refine h.outside (name :: front) place (List.cons_prefix_cons.mpr ⟨rfl, hfront⟩) ?_ ?_
      · intro heq
        exact hne (List.cons.inj heq).2
      · rw [Disk.canonicalize_cons hnext]
        exact hplace
  · rintro ⟨hsource, hname, hrest⟩
    constructor
    · intro front hne hfront
      obtain ⟨first, front, rfl⟩ := List.exists_cons_of_ne_nil hne
      obtain ⟨rfl, hbelow⟩ := List.cons_prefix_cons.mp hfront
      by_cases hempty : front = []
      · rw [hempty]
        exact hname
      · rw [List.append_cons]
        exact hrest.included front hempty hbelow
    · intro front place hfront hne hplace
      cases front with
      | nil =>
          cases hplace
          exact hsource
      | cons first front =>
          obtain ⟨rfl, hbelow⟩ := List.cons_prefix_cons.mp hfront
          rw [Disk.canonicalize_cons hnext] at hplace
          refine hrest.outside front place hbelow ?_ hplace
          intro heq
          exact hne (by rw [heq])

/-- A file is copied as it is. -/
theorem copied_file {source : Location} {contents : List UInt8} {mode : Nat}
    (hfile : disk.find source = some (.file contents mode)) (relative : List OsString) :
    Copied build disk context source relative (.file contents mode) where
  files names contents' mode' := by
    cases names with
    | nil =>
        constructor
        · intro h
          cases h
          exact ⟨⟨source, rfl, hfile⟩, kept_nil source relative⟩
        · rintro ⟨⟨place, hplace, hfind⟩, _⟩
          cases hplace
          rw [hfile] at hfind
          exact hfind
    | cons name rest =>
        constructor
        · intro h
          cases h
        · rintro ⟨⟨place, hplace, _⟩, _⟩
          exact absurd hplace (Disk.canonicalize_below_file (by rw [hfile]; rfl))
  noLinks names target h := by
    cases names with
    | nil => cases h
    | cons name rest => cases h

/-- The loop copies each name of the directory as its body says, and no other. -/
theorem copy_entries_ok {copy : OsString → Except String (Option Disk)} {names : List OsString}
    {entries : List (OsString × Disk)} (h : copyEntries copy names = .ok entries)
    (name : OsString) :
    (name ∈ names → copy name = .ok ((Disk.directory entries).child name)) ∧
      (name ∉ names → (Disk.directory entries).child name = none) := by
  induction names generalizing entries with
  | nil =>
      cases h
      exact ⟨fun hname => absurd hname List.not_mem_nil, fun _ => rfl⟩
  | cons first rest ih =>
      obtain ⟨copied, hfirst, h⟩ := except_bind_ok.mp h
      obtain ⟨others, hrest, h⟩ := except_bind_ok.mp h
      have hothers := ih hrest
      cases copied with
      | none =>
          cases h
          refine ⟨fun hname => ?_, fun hname => hothers.2 fun h => hname (.tail _ h)⟩
          by_cases heq : name ∈ rest
          · exact hothers.1 heq
          · rw [hothers.2 heq]
            rcases List.mem_cons.mp hname with rfl | hname
            · exact hfirst
            · exact absurd hname heq
      | some node =>
          cases h
          by_cases heq : first = name
          · subst heq
            have hchild : (Disk.directory ((first, node) :: others)).child first = some node := by
              simp [Disk.child]
            refine ⟨fun _ => ?_, fun hname => absurd List.mem_cons_self hname⟩
            rw [hchild]
            exact hfirst
          · have hchild : (Disk.directory ((first, node) :: others)).child name =
                (Disk.directory others).child name := by
              simp [Disk.child, heq]
            rw [hchild]
            refine ⟨fun hname => hothers.1 ?_, fun hname => hothers.2 fun h => hname (.tail _ h)⟩
            rcases List.mem_cons.mp hname with rfl | hname
            · exact absurd rfl heq
            · exact hname

/-- What is copied below a directory: nothing, or its files. -/
structure Descends (build : Build) (disk : Disk) (context : CopyContext)
    (copyDirectory : Location → List OsString → Except String (List (OsString × Disk))) : Prop where
  copied : ∀ {source relative entries}, Disk.isDirectory (disk.find source) = true →
    copyDirectory source relative = .ok entries →
    Copied build disk context source relative (.directory entries)

/-- The target of a link is copied where the link is. -/
theorem copy_project_symlink_ok
    {descend : Location → List OsString → Except String (List (OsString × Disk))}
    (hdescend : Descends build disk context descend) {source : Location}
    {target : Except PathError Location} {relative : List OsString} {node : Disk}
    (h : copyProjectSymlink disk context descend source target relative = .ok node) :
    ∃ next, target = .ok next ∧ Copied build disk context next relative node := by
  unfold copyProjectSymlink at h
  cases target with
  | error error => cases h
  | ok canonical =>
      obtain ⟨_, h⟩ := refuse_then_ok.mp h
      obtain ⟨_, h⟩ := refuse_then_ok.mp h
      refine ⟨canonical, rfl, ?_⟩
      split at h
      · rename_i inner hfind
        obtain ⟨entries, hentries, heq⟩ := except_bind_ok.mp h
        cases heq
        exact hdescend.copied (by rw [hfind]; rfl) hentries
      · rename_i contents mode hfind
        cases h
        exact copied_file hfind relative
      · cases h

/-- An entry is left out, or it leads somewhere and what is there is copied. -/
theorem copy_entry_ok
    {descend : Location → List OsString → Except String (List (OsString × Disk))}
    (hdescend : Descends build disk context descend) {source : Location}
    {relative : List OsString} {name : OsString} {copied : Option Disk}
    (h : copyEntry build disk context descend source relative name = .ok copied) :
    (copied = none ∧ excludedPath build (relative ++ [name]) context.excludes = true) ∨
      ∃ next, disk.follow source name = .ok next ∧
        excludedPath build (relative ++ [name]) context.excludes = false ∧
        ((copied = none ∧ Disk.isDirectory (disk.find next) = true ∧
            context.buildOutput <+: next) ∨
          ∃ node, copied = some node ∧
            Copied build disk context next (relative ++ [name]) node) := by
  unfold copyEntry at h
  dsimp only at h
  split at h
  · rename_i hexcluded
    cases h
    exact .inl ⟨rfl, hexcluded⟩
  · rename_i hincluded
    rw [Bool.not_eq_true] at hincluded
    refine .inr ?_
    split at h
    · rename_i inner hfind
      refine ⟨_, Disk.follow_found hfind (by simp), hincluded, ?_⟩
      split at h
      · rename_i houtput
        cases h
        exact .inl ⟨rfl, by rw [hfind]; rfl, List.isPrefixOf_iff_prefix.mp houtput⟩
      · obtain ⟨entries, hentries, heq⟩ := except_bind_ok.mp h
        cases heq
        exact .inr ⟨_, rfl, hdescend.copied (by rw [hfind]; rfl) hentries⟩
    · rename_i contents mode hfind
      cases h
      exact ⟨_, Disk.follow_found hfind (by simp), hincluded, .inr ⟨_, rfl, copied_file hfind _⟩⟩
    · rename_i target hfind
      obtain ⟨node, hnode, heq⟩ := except_bind_ok.mp h
      cases heq
      obtain ⟨next, rfl, hcopied⟩ := copy_project_symlink_ok hdescend hnode
      refine ⟨next, ?_, hincluded, .inr ⟨node, rfl, hcopied⟩⟩
      rw [Disk.follow, hfind]
    · cases h
    · cases h

/-- A directory is copied as its entries are, unless the bundle is built in it. -/
theorem copied_directory {source : Location} {relative : List OsString}
    {entries : List (OsString × Disk)} (hdirectory : Disk.isDirectory (disk.find source) = true)
    (hentries : ∀ name,
      (∀ node, (Disk.directory entries).child name = some node →
        ¬ context.buildOutput <+: source ∧ ∃ next, disk.follow source name = .ok next ∧
          excludedPath build (relative ++ [name]) context.excludes = false ∧
          Copied build disk context next (relative ++ [name]) node) ∧
      ((Disk.directory entries).child name = none → ∀ rest place, Disk.isFile (disk.find place) →
        disk.canonicalize source (name :: rest) = .ok place →
        ¬ Kept build disk context source relative (name :: rest))) :
    Copied build disk context source relative (.directory entries) where
  files names contents mode := by
    cases names with
    | nil =>
        constructor
        · intro h
          cases h
        · rintro ⟨⟨place, hplace, hfind⟩, _⟩
          cases hplace
          rw [hfind] at hdirectory
          cases hdirectory
    | cons name rest =>
        rw [Disk.find_cons]
        cases hchild : (Disk.directory entries).child name with
        | none =>
            constructor
            · intro h
              cases h
            · rintro ⟨⟨place, hplace, hfind⟩, hkept⟩
              exact absurd hkept
                ((hentries name).2 hchild rest place (by rw [hfind]; rfl) hplace)
        | some node =>
            obtain ⟨houtput, next, hnext, hincluded, hcopied⟩ := (hentries name).1 node hchild
            rw [kept_cons hnext, Disk.canonicalize_cons hnext]
            constructor
            · intro h
              obtain ⟨hfile, hkept⟩ := (hcopied.files rest contents mode).mp h
              exact ⟨hfile, houtput, hincluded, hkept⟩
            · rintro ⟨hfile, _, _, hkept⟩
              exact (hcopied.files rest contents mode).mpr ⟨hfile, hkept⟩
  noLinks names target h := by
    cases names with
    | nil => cases h
    | cons name rest =>
        rw [Disk.find_cons] at h
        obtain ⟨node, hnode, h⟩ := Option.bind_eq_some_iff.mp h
        obtain ⟨_, next, _, _, hcopied⟩ := (hentries name).1 node hnode
        exact hcopied.noLinks rest target h

/-- `copy_directory` copies what is kept. The induction is on the depth: `Descends` is what it
gives for the directories below. -/
theorem copy_directory_descends (fuel : Nat) (active : List Location) :
    Descends build disk context fun source relative =>
      copyDirectory build disk context fuel source relative active := by
  induction fuel generalizing active with
  | zero => exact ⟨fun _ h => nomatch h⟩
  | succ fuel ih =>
      refine ⟨fun {source relative entries} hdirectory h => ?_⟩
      unfold copyDirectory at h
      split at h
      · rename_i houtput
        have houtput := List.isPrefixOf_iff_prefix.mp houtput
        cases h
        refine copied_directory hdirectory fun name => ⟨fun node hnode => ?_, ?_⟩
        · cases hnode
        · intro _ rest place _ hplace hkept
          obtain ⟨next, hnext, _⟩ := Disk.canonicalize_cons_ok hplace
          exact ((kept_cons hnext).mp hkept).1 houtput
      · rename_i houtput
        rw [List.isPrefixOf_iff_prefix] at houtput
        split at h
        · cases h
        · split at h
          · rename_i inner hfind
            refine copied_directory hdirectory fun name => ?_
            obtain ⟨hlisted, hunlisted⟩ := copy_entries_ok h name
            by_cases hname : name ∈ inner.map Prod.fst
            · rcases copy_entry_ok (ih (source :: active)) (hlisted hname) with
                ⟨hnone, hexcluded⟩ | ⟨next, hnext, hincluded, ⟨hnone, hfound, hinside⟩ |
                  ⟨node, hnode, hcopied⟩⟩
              · refine ⟨fun node hnode => ?_, ?_⟩
                · rw [hnone] at hnode
                  cases hnode
                · intro _ rest place _ hplace hkept
                  obtain ⟨next, hnext, _⟩ := Disk.canonicalize_cons_ok hplace
                  rw [((kept_cons hnext).mp hkept).2.1] at hexcluded
                  cases hexcluded
              · refine ⟨fun node hnode => ?_, ?_⟩
                · rw [hnone] at hnode
                  cases hnode
                · -- the bundle is built there, and the path ends in a file: it leads on from there
                  intro _ rest place hfile hplace hkept
                  rw [Disk.canonicalize_cons hnext] at hplace
                  cases rest with
                  | nil =>
                      cases hplace
                      exact Disk.not_file_and_directory hfile hfound
                  | cons other rest =>
                      have hrest := ((kept_cons hnext).mp hkept).2.2
                      exact hrest.outside [] next List.nil_prefix (by simp) rfl hinside
              · rw [hnode]
                refine ⟨fun other hother => ?_, fun hnone => nomatch hnone⟩
                cases hother
                exact ⟨houtput, next, hnext, hincluded, hcopied⟩
            · -- a name that is not listed leads nowhere
              rw [hunlisted hname]
              refine ⟨fun node hnode => (nomatch hnode), fun _ rest place _ hplace _ => ?_⟩
              obtain ⟨next, hnext, _⟩ := Disk.canonicalize_cons_ok hplace
              refine Disk.follow_missing ?_ hnext
              rw [Disk.find_append, hfind]
              exact Disk.find_unlisted hname
          · cases h

/-- The files of the project that `copy_project` copies. -/
theorem copy_project_ok {fuel : Nat} {entries : List (OsString × Disk)}
    (hroot : Disk.isDirectory (disk.find context.projectRoot) = true)
    (h : copyProject build disk context fuel = .ok entries) :
    Copied build disk context context.projectRoot [] (.directory entries) :=
  (copy_directory_descends fuel []).copied hroot h

end Copying

/-! ## What is changed after the copy -/

/-- The entries of a directory after each was changed according to its name. -/
theorem child_map (change : OsString → Disk → Disk) (entries : List (OsString × Disk))
    (name : OsString) :
    (Disk.directory (entries.map fun item => (item.1, change item.1 item.2))).child name =
      ((Disk.directory entries).child name).map (change name) := by
  induction entries with
  | nil => rfl
  | cons item rest ih =>
      by_cases heq : item.1 = name
      · simp [Disk.child, heq]
      · simpa [Disk.child, heq] using ih

theorem overwrite_is_file (contents : List UInt8) (node : Option Disk) :
    Disk.isFile (node.map (overwrite contents)) = Disk.isFile node := by
  match node with
  | none => rfl
  | some (.file _ _) => rfl
  | some (.directory _) => rfl
  | some (.symlink _) => rfl
  | some .special => rfl

/-- Only the contents of the file of this name change. -/
theorem write_json_object_find (name : String) (object : List (String × Json))
    (entries : List (OsString × Disk)) {names : List OsString} (hne : names ≠ []) :
    ∃ contents, (Disk.directory (writeJsonObject name object entries)).find names =
      if names = [osString name] then
        ((Disk.directory entries).find names).map (overwrite contents)
      else (Disk.directory entries).find names := by
  obtain ⟨first, rest, rfl⟩ := List.exists_cons_of_ne_nil hne
  let encoded := textBytes (Json.pretty escapeChar [] (.object object)) ++ [10]
  refine ⟨encoded, ?_⟩
  have hwrite := child_map
    (fun other node => if other = osString name then overwrite encoded node else node) entries
    first
  rw [Disk.find_cons, Disk.find_cons, writeJsonObject, hwrite]
  cases hchild : (Disk.directory entries).child first with
  | none => simp
  | some node =>
      by_cases hfirst : first = osString name
      · subst hfirst
        cases rest with
        | nil => simp [Disk.find]
        | cons other rest =>
            rw [if_neg (by simp)]
            simp only [Option.map_some, if_pos, Option.bind_some]
            cases node <;> rfl
      · rw [if_neg (by simp [hfirst])]
        simp only [Option.map_some, if_neg hfirst, Option.bind_some]

/-- The trees have the same files at the same places. -/
structure SameFiles (entries entries' : List (OsString × Disk)) : Prop where
  files : ∀ names, Disk.isFile ((Disk.directory entries').find names) =
    Disk.isFile ((Disk.directory entries).find names)
  contents : ∀ names, names ≠ [osString "composer.json"] → names ≠ [osString "composer.lock"] →
    Disk.isFile ((Disk.directory entries).find names) = true →
    (Disk.directory entries').find names = (Disk.directory entries).find names
  noLinks : (Disk.directory entries).NoLinks → (Disk.directory entries').NoLinks

theorem SameFiles.trans {first second third : List (OsString × Disk)}
    (h : SameFiles first second) (h' : SameFiles second third) : SameFiles first third where
  files names := (h'.files names).trans (h.files names)
  contents names hjson hlock hfile := by
    rw [h'.contents names hjson hlock ((h.files names).trans hfile)]
    exact h.contents names hjson hlock hfile
  noLinks hlinks := h'.noLinks (h.noLinks hlinks)

/-- Writing Composer metadata leaves the files where they are. -/
theorem write_json_object_same {name : String} (object : List (String × Json))
    (entries : List (OsString × Disk)) (hname : name = "composer.json" ∨ name = "composer.lock") :
    SameFiles entries (writeJsonObject name object entries) where
  files names := by
    by_cases hne : names = []
    · rw [hne]
      rfl
    · obtain ⟨contents, hfind⟩ := write_json_object_find name object entries hne
      rw [hfind]
      split
      · exact overwrite_is_file contents _
      · rfl
  contents names hjson hlock hfile := by
    by_cases hne : names = []
    · rw [hne] at hfile
      cases hfile
    · obtain ⟨contents, hfind⟩ := write_json_object_find name object entries hne
      rw [hfind, if_neg]
      rcases hname with rfl | rfl
      · exact hjson
      · exact hlock
  noLinks hlinks names target h := by
    by_cases hne : names = []
    · rw [hne] at h
      cases h
    · obtain ⟨contents, hfind⟩ := write_json_object_find name object entries hne
      rw [hfind] at h
      split at h
      · obtain ⟨node, hnode, heq⟩ := Option.map_eq_some_iff.mp h
        cases node with
        | symlink other => exact hlinks names other hnode
        | file contents' mode => cases heq
        | directory inner => cases heq
        | special => cases heq
      · exact hlinks names target h

/-- After `sanitize_composer_metadata` the files are where they were, and there is a manifest. -/
theorem sanitize_composer_metadata_ok {packaging : Packaging} {app : Location}
    {entries entries' : List (OsString × Disk)}
    (h : sanitizeComposerMetadata packaging app entries = .ok entries') :
    SameFiles entries entries' ∧
      Disk.isFile ((Disk.directory entries').find [osString "composer.json"]) = true := by
  obtain ⟨manifest, hmanifest, h⟩ := except_bind_ok.mp h
  have hsame : SameFiles entries
      (writeJsonObject "composer.json" (withoutPathRepositories manifest) entries) :=
    write_json_object_same _ entries (.inl rfl)
  have hfile : Disk.isFile ((Disk.directory entries).find [osString "composer.json"]) = true := by
    rw [Disk.find_singleton]
    unfold readJsonObject at hmanifest
    split at hmanifest
    · rename_i source mode hchild
      rw [hchild]
      rfl
    · cases hmanifest
  have hresult : SameFiles entries entries' := by
    dsimp only at h
    split at h
    · cases h
      exact hsame
    · obtain ⟨lock, _, heq⟩ := except_bind_ok.mp h
      cases heq
      exact hsame.trans (write_json_object_same _ _ (.inr rfl))
  exact ⟨hresult, (hresult.files _).trans hfile⟩

theorem normalize_entries_eq (relative : List OsString) (entries : List (OsString × Disk)) :
    normalizeEntries relative entries =
      entries.map fun item => (item.1, normalizePermissions (relative ++ [item.1]) item.2) := by
  induction entries with
  | nil => rfl
  | cons item rest ih =>
      obtain ⟨name, node⟩ := item
      rw [normalizeEntries, ih]
      rfl

/-- Every node gets the permissions of its own path. -/
theorem normalize_permissions_find (relative names : List OsString) (node : Disk) :
    (normalizePermissions relative node).find names =
      (node.find names).map (normalizePermissions (relative ++ names)) := by
  induction names generalizing relative node with
  | nil =>
      rw [List.append_nil]
      rfl
  | cons name rest ih =>
      cases node with
      | directory entries =>
          rw [normalizePermissions, normalize_entries_eq, Disk.find_cons, Disk.find_cons,
            child_map fun name => normalizePermissions (relative ++ [name])]
          cases (Disk.directory entries).child name with
          | none => rfl
          | some node =>
              rw [Option.map_some, Option.bind_some, Option.bind_some, ih, ← List.append_cons]
      | file contents mode => rfl
      | symlink target => rfl
      | special => rfl

theorem normalize_permissions_is_file (relative : List OsString) (node : Option Disk) :
    Disk.isFile (node.map (normalizePermissions relative)) = Disk.isFile node := by
  match node with
  | none => rfl
  | some (.file _ _) => rfl
  | some (.directory _) => rfl
  | some (.symlink _) => rfl
  | some .special => rfl

theorem normalize_permissions_no_links {relative : List OsString} {node : Disk}
    (h : node.NoLinks) : (normalizePermissions relative node).NoLinks := by
  intro names target hfind
  rw [normalize_permissions_find] at hfind
  obtain ⟨inner, hinner, heq⟩ := Option.map_eq_some_iff.mp hfind
  cases inner with
  | symlink other => exact h names other hinner
  | file contents mode => cases heq
  | directory entries => cases heq
  | special => cases heq

/-! ## The bundle as a project -/

section Bundle

variable {build : Build} {after tree : Disk} {place : Location}

/-- Where a path leads in a tree without links. -/
theorem resolve_path_bundled (hplace : after.find place = some tree) (hlinks : tree.NoLinks)
    {text : String} {names : List OsString}
    (hnames : (projectComponents build text).getD [] = names) {resolved : Location} :
    resolvePath build after place text = .ok resolved ↔
      resolved = place ++ names ∧ tree.find names ≠ none ∧
        (endsInDirectory build text = true → Disk.isDirectory (tree.find names) = true) := by
  have hfind : after.find (place ++ names) = tree.find names := by
    rw [Disk.find_append, hplace]
    rfl
  rw [resolve_path_ok hnames, Disk.canonicalize_no_links hplace hlinks, and_assoc]
  constructor
  · rintro ⟨rfl, hfound, hends⟩
    rw [hfind] at hends
    exact ⟨rfl, hfound, hends⟩
  · rintro ⟨rfl, hfound, hends⟩
    rw [← hfind] at hends
    exact ⟨rfl, hfound, hends⟩

theorem is_file_at_bundled (hplace : after.find place = some tree) (hlinks : tree.NoLinks)
    {text : String} {names : List OsString}
    (hnames : (projectComponents build text).getD [] = names) :
    isFileAt build after place text = true ↔ endsInDirectory build text = false ∧
      Disk.isFile (tree.find names) = true := by
  have hfind : after.find (place ++ names) = tree.find names := by
    rw [Disk.find_append, hplace]
    rfl
  rw [is_file_at_iff hnames]
  simp only [Disk.canonicalize_no_links hplace hlinks]
  constructor
  · rintro ⟨hends, resolved, ⟨rfl, _⟩, hfile⟩
    rw [hfind] at hfile
    exact ⟨hends, hfile⟩
  · rintro ⟨hends, hfile⟩
    refine ⟨hends, place ++ names, ⟨rfl, ?_⟩, by rw [hfind]; exact hfile⟩
    intro hnone
    rw [hnone] at hfile
    cases hfile

theorem public_root_bundled (hplace : after.find place = some tree) (hlinks : tree.NoLinks)
    {bundled : Project} (hroot : bundled.root = place) {resources : Location} :
    bundled.publicRoot build after = .ok resources ↔
      resources = place ++ [osString "resources"] ∧
        Disk.isDirectory (tree.find [osString "resources"]) = true := by
  have hfind : after.find (place ++ [osString "resources"]) = tree.find [osString "resources"] := by
    rw [Disk.find_append, hplace]
    rfl
  rw [Project.public_root_ok, hroot, resolve_path_bundled hplace hlinks components_resources]
  constructor
  · rintro ⟨⟨rfl, _, _⟩, hdirectory, _⟩
    rw [hfind] at hdirectory
    exact ⟨rfl, hdirectory⟩
  · rintro ⟨rfl, hdirectory⟩
    refine ⟨⟨rfl, ?_, fun _ => hdirectory⟩, by rw [hfind]; exact hdirectory,
      List.prefix_append place _⟩
    intro hnone
    rw [hnone] at hdirectory
    cases hdirectory

end Bundle

/-- What `materialize_bundle` makes of a project. -/
structure Materialized (packaging : Packaging) (disk : Disk) (context : CopyContext)
    (bootstrap : Bootstrap) (tree : Disk) : Prop where
  files : ∀ names, Disk.isFile (tree.find names) = true ↔
    (∃ place, disk.canonicalize context.projectRoot names = .ok place ∧
      Disk.isFile (disk.find place) = true) ∧
    Kept packaging.toBuild disk context context.projectRoot [] names
  contents : ∀ names contents mode, names ≠ [osString "composer.json"] →
    names ≠ [osString "composer.lock"] → tree.find names = some (.file contents mode) →
    ∃ place mode', disk.canonicalize context.projectRoot names = .ok place ∧
      disk.find place = some (.file contents mode')
  modes : packaging.operatingSystem ≠ .windows → ∀ names contents mode,
    tree.find names = some (.file contents mode) →
    mode = if executablePath (osString "app" :: names) then 0o755 else 0o644
  noLinks : tree.NoLinks
  manifest : Disk.isFile (tree.find [osString "composer.json"]) = true
  plugins : ∀ plugin ∈ bootstrap.rustPlugins,
    isFileAt packaging.toBuild tree [] plugin.executable = true ∨
      exeSuffix packaging.toBuild ≠ "" ∧ isFileAt packaging.toBuild tree []
        (plugin.executable ++ exeSuffix packaging.toBuild) = true

theorem is_file_iff {node : Option Disk} :
    Disk.isFile node = true ↔ ∃ contents mode, node = some (.file contents mode) := by
  constructor
  · intro h
    match node with
    | some (.file contents mode) => exact ⟨contents, mode, rfl⟩
  · rintro ⟨contents, mode, rfl⟩
    rfl

/-- The files of a copy, whatever is in them. -/
theorem Copied.is_file {build : Build} {disk : Disk} {context : CopyContext} {source : Location}
    {relative : List OsString} {node : Disk} (h : Copied build disk context source relative node)
    (names : List OsString) :
    Disk.isFile (node.find names) = true ↔
      (∃ place, disk.canonicalize source names = .ok place ∧
        Disk.isFile (disk.find place) = true) ∧
      Kept build disk context source relative names := by
  constructor
  · intro hfile
    obtain ⟨contents, mode, hfind⟩ := is_file_iff.mp hfile
    obtain ⟨⟨place, hplace, hfind⟩, hkept⟩ := (h.files names contents mode).mp hfind
    exact ⟨⟨place, hplace, is_file_iff.mpr ⟨contents, mode, hfind⟩⟩, hkept⟩
  · rintro ⟨⟨place, hplace, hfile⟩, hkept⟩
    obtain ⟨contents, mode, hfind⟩ := is_file_iff.mp hfile
    exact is_file_iff.mpr
      ⟨contents, mode, (h.files names contents mode).mpr ⟨⟨place, hplace, hfind⟩, hkept⟩⟩

/-- The permissions leave every file where it is, with its contents. -/
structure Rewritten (packaging : Packaging) (node tree : Disk) : Prop where
  files : ∀ names, Disk.isFile (tree.find names) = Disk.isFile (node.find names)
  contents : ∀ names contents mode, tree.find names = some (.file contents mode) →
    ∃ mode', node.find names = some (.file contents mode')
  modes : packaging.operatingSystem ≠ .windows → ∀ names contents mode,
    tree.find names = some (.file contents mode) →
    mode = if executablePath (osString "app" :: names) then 0o755 else 0o644
  noLinks : node.NoLinks → tree.NoLinks

theorem permissions_rewritten (packaging : Packaging) (node : Disk) :
    Rewritten packaging node
      (if packaging.operatingSystem = .windows then node
        else normalizePermissions [osString "app"] node) := by
  split
  · rename_i hwindows
    exact ⟨fun _ => rfl, fun _ _ mode h => ⟨mode, h⟩, fun hunix => absurd hwindows hunix, id⟩
  · have hfile : ∀ names contents mode,
        (normalizePermissions [osString "app"] node).find names = some (.file contents mode) →
        (∃ mode', node.find names = some (.file contents mode')) ∧
          mode = if executablePath (osString "app" :: names) then 0o755 else 0o644 := by
      intro names contents mode h
      rw [normalize_permissions_find] at h
      obtain ⟨inner, hinner, heq⟩ := Option.map_eq_some_iff.mp h
      cases inner with
      | file contents' mode' =>
          cases heq
          exact ⟨⟨mode', hinner⟩, rfl⟩
      | directory entries => cases heq
      | symlink target => cases heq
      | special => cases heq
    refine ⟨fun names => ?_, fun names contents mode h => (hfile names contents mode h).1,
      fun _ names contents mode h => (hfile names contents mode h).2,
      normalize_permissions_no_links⟩
    rw [normalize_permissions_find]
    exact normalize_permissions_is_file _ _

theorem materialize_bundle_ok {packaging : Packaging} {disk tree : Disk} {fuel : Nat}
    {project : Project} {bootstrap : Bootstrap} {app output : Location}
    (hroot : Disk.isDirectory (disk.find project.root) = true)
    (h : materializeBundle packaging disk fuel project bootstrap app output = .ok tree) :
    Materialized packaging disk (copyContext project bootstrap output) bootstrap tree := by
  obtain ⟨copied, hcopied, h⟩ := except_bind_ok.mp h
  obtain ⟨entries, hentries, h⟩ := except_bind_ok.mp h
  obtain ⟨⟨⟩, hplugins, h⟩ := except_bind_ok.mp h
  obtain ⟨⟨⟩, _, h⟩ := except_bind_ok.mp h
  have hcopied : Copied packaging.toBuild disk (copyContext project bootstrap output) project.root
      [] (.directory copied) := copy_project_ok hroot hcopied
  obtain ⟨hsame, hmanifest⟩ := sanitize_composer_metadata_ok hentries
  have hrewritten := permissions_rewritten packaging (.directory entries)
  obtain rfl : (if packaging.operatingSystem = .windows then Disk.directory entries
      else normalizePermissions [osString "app"] (.directory entries)) = tree := Except.ok.inj h
  have hlinks := hsame.noLinks hcopied.noLinks
  refine ⟨fun names => ?_, fun names contents mode hjson hlock hfind => ?_, hrewritten.modes,
    hrewritten.noLinks hlinks, ?_, fun plugin hplugin => ?_⟩
  · rw [hrewritten.files, hsame.files]
    exact hcopied.is_file names
  · obtain ⟨mode', hfind⟩ := hrewritten.contents names contents mode hfind
    have hfile : Disk.isFile ((Disk.directory copied).find names) = true := by
      rw [← hsame.files, hfind]
      rfl
    rw [hsame.contents names hjson hlock hfile] at hfind
    obtain ⟨⟨place, hplace, hfind⟩, _⟩ := (hcopied.files names contents mode').mp hfind
    exact ⟨place, mode', hplace, hfind⟩
  · rw [hrewritten.files]
    exact hmanifest
  · have hbundled : ∀ text, isFileAt packaging.toBuild (.directory entries) [] text =
        isFileAt packaging.toBuild (if packaging.operatingSystem = .windows then
          Disk.directory entries else normalizePermissions [osString "app"] (.directory entries))
          [] text := by
      intro text
      have hbefore : (Disk.directory entries).find [] = some (.directory entries) := rfl
      rw [Bool.eq_iff_iff, is_file_at_bundled hbefore hlinks rfl,
        is_file_at_bundled rfl (hrewritten.noLinks hlinks) rfl, hrewritten.files]
    have hcheck := for_m_ok.mp hplugins plugin hplugin
    unfold checkPlugin at hcheck
    rw [refuse_if_ok, Bool.not_eq_false'] at hcheck
    rw [← hbundled, ← hbundled]
    split at hcheck
    · rename_i hsuffix
      rw [Bool.and_eq_true, bne_iff_ne] at hsuffix
      exact .inr ⟨hsuffix.2, hcheck⟩
    · exact .inl hcheck

/-! ## When the bundle is complete -/

/-- A path of the bootstrap that is a file of the project. -/
def InProject (build : Build) (disk : Disk) (project : Project) (text : String) : Prop :=
  ∃ place, resolvePath build disk project.root text = .ok place ∧ project.root <+: place ∧
    Disk.isFile (disk.find place) = true

/-- The bundled directory is a project for the bootstrap, with the processes that the project
had. -/
structure Complete (platform : Platform) (disk : Disk) (project : Project) (bootstrap : Bootstrap)
    (after : Disk) (place : Location) : Prop where
  accepted : ∃ bundled, Project.discover platform.toBuild after place = .ok bundled ∧
    bundled.validateBootstrap platform after bootstrap = .ok ()
  processes : ∀ process ∈ bootstrap.capabilities.processes,
    InProject platform.toBuild disk project process.executable →
    isFileAt platform.toBuild after place process.executable = true

/-- Nothing that the bootstrap names is kept out of the bundle. -/
structure Carried (platform : Platform) (disk : Disk) (project : Project) (bootstrap : Bootstrap)
    (context : CopyContext) : Prop where
  application : Kept platform.toBuild disk context project.root [] [osString "app.php"]
  autoload : Kept platform.toBuild disk context project.root []
    [osString "vendor", osString "autoload.php"]
  assets : ∀ asset ∈ bootstrap.manifest.icon :: bootstrap.windows.map (·.entry),
    ∃ rest, projectComponents platform.toBuild asset = some (osString "resources" :: rest) ∧
      Kept platform.toBuild disk context project.root [] (osString "resources" :: rest)
  icon : ∀ place contents mode,
    resolvePath platform.toBuild disk project.root bootstrap.manifest.icon = .ok place →
    disk.find place = some (.file contents mode) →
    validateIcon (iconExtension platform.toBuild bootstrap.manifest.icon) contents = .ok ()
  plugins : platform.operatingSystem ≠ .windows → ∀ plugin ∈ bootstrap.rustPlugins, ∀ names,
    projectComponents platform.toBuild plugin.executable = some names →
    executablePath (osString "app" :: names) = true
  processes : ∀ process ∈ bootstrap.capabilities.processes,
    InProject platform.toBuild disk project process.executable → ∀ names,
    projectComponents platform.toBuild process.executable = some names →
    Kept platform.toBuild disk context project.root [] names

namespace Materialized

variable {packaging : Packaging} {disk after tree : Disk} {context : CopyContext}
  {bootstrap : Bootstrap} {place : Location} {project bundled : Project}

/-- The bundle is a directory: it has a `composer.json`. -/
theorem is_directory (h : Materialized packaging disk context bootstrap tree)
    (hplace : after.find place = some tree) : Disk.isDirectory (after.find place) = true := by
  have hmanifest := h.manifest
  have hfound : tree.find [osString "composer.json"] ≠ none := by
    intro hnone
    rw [hnone] at hmanifest
    cases hmanifest
  obtain ⟨entries, heq⟩ := Disk.find_below hfound
  rw [hplace, heq]
  rfl

/-- A path is a file of the bundle if it is one of the project and nothing keeps it out. -/
theorem file_at (h : Materialized packaging disk context bootstrap tree)
    (hplace : after.find place = some tree) {text : String} {names : List OsString}
    (hnames : (projectComponents packaging.toBuild text).getD [] = names) :
    isFileAt packaging.toBuild after place text = true ↔
      isFileAt packaging.toBuild disk context.projectRoot text = true ∧
        Kept packaging.toBuild disk context context.projectRoot [] names := by
  rw [is_file_at_bundled hplace h.noLinks hnames, h.files, is_file_at_iff hnames, and_assoc]

/-- A public file of the project is one of the bundle if its path starts with `resources` and
nothing keeps it out. -/
theorem public_asset (h : Materialized packaging disk context bootstrap tree)
    (hplace : after.find place = some tree) (hbundled : bundled.root = place)
    (hcontext : context.projectRoot = project.root)
    (hroot : Disk.isDirectory (disk.find project.root) = true) {asset : String}
    {resolved : Location}
    (hasset : Project.PublicAsset packaging.toBuild disk project asset resolved)
    (hfile : Disk.isFile (disk.find resolved) = true) :
    (∃ last, Project.PublicAsset packaging.toBuild after bundled asset last ∧
        Disk.isFile (after.find last) = true) ↔
      ∃ rest, projectComponents packaging.toBuild asset = some (osString "resources" :: rest) ∧
        Kept packaging.toBuild disk context project.root [] (osString "resources" :: rest) := by
  have hproject : isFileAt packaging.toBuild disk project.root asset = true :=
    is_file_at_resolved.mpr ⟨resolved, hasset.resolves, hfile⟩
  obtain ⟨names, hnames, hne⟩ := components_of_file hroot hproject
  have hget : (projectComponents packaging.toBuild asset).getD [] = names := by
    rw [hnames]
    rfl
  have hat := h.file_at hplace hget
  rw [hcontext] at hat
  constructor
  · rintro ⟨last, hlast, hfound⟩
    have hresolves := hlast.resolves
    rw [hbundled] at hresolves
    have hkept := (hat.mp (is_file_at_resolved.mpr ⟨last, hresolves, hfound⟩)).2
    obtain ⟨rfl, _⟩ := (resolve_path_bundled hplace h.noLinks hget).mp hresolves
    obtain ⟨resources, hresources, hinside⟩ := hlast.inside
    obtain ⟨rfl, _⟩ := (public_root_bundled hplace h.noLinks hbundled).mp hresources
    obtain ⟨rest, hrest⟩ := (List.prefix_append_right_inj place).mp hinside
    subst hrest
    exact ⟨rest, hnames, hkept⟩
  · rintro ⟨rest, hrest, hkept⟩
    rw [hrest] at hnames
    cases hnames
    obtain ⟨last, hresolves, hfound⟩ := is_file_at_resolved.mp (hat.mpr ⟨hproject, hkept⟩)
    obtain ⟨rfl, hexists, _⟩ := (resolve_path_bundled hplace h.noLinks hget).mp hresolves
    -- `resources` itself is a directory of the project, so the path leads on from it
    have hmore : rest ≠ [] := by
      rintro rfl
      obtain ⟨resources, hresources, _⟩ := hasset.inside
      obtain ⟨hpath, hdirectory, _⟩ := Project.public_root_ok.mp hresources
      have hpath := ((resolve_path_ok components_resources).mp hpath).1
      have hsame := ((resolve_path_ok hget).mp hasset.resolves).1
      rw [hpath] at hsame
      cases hsame
      exact Disk.not_file_and_directory hfile hdirectory
    have hdirectory : Disk.isDirectory (tree.find [osString "resources"]) = true := by
      obtain ⟨next, more, rfl⟩ := List.exists_cons_of_ne_nil hmore
      rw [Disk.find_cons] at hexists
      rw [Disk.find_singleton]
      cases hchild : tree.child (osString "resources") with
      | none =>
          rw [hchild] at hexists
          exact absurd rfl hexists
      | some node =>
          rw [hchild] at hexists
          obtain ⟨entries, rfl⟩ := Disk.find_below hexists
          rfl
    refine ⟨_, ⟨hasset.relative, by rw [hbundled]; exact hresolves, ?_⟩, hfound⟩
    refine ⟨_, (public_root_bundled hplace h.noLinks hbundled).mpr ⟨rfl, hdirectory⟩, ?_⟩
    exact (List.prefix_append_right_inj place).mpr ⟨rest, rfl⟩

/-- The file that a plugin is started from is in the bundle. -/
theorem plugin_candidate (h : Materialized packaging disk context bootstrap tree)
    (hplace : after.find place = some tree) {plugin : RustPluginConfig}
    (hplugin : plugin ∈ bootstrap.rustPlugins) :
    isFileAt packaging.toBuild after place
      (Project.pluginCandidate packaging.toBuild after place plugin.executable) = true := by
  have hsame : ∀ text, isFileAt packaging.toBuild tree [] text = true →
      isFileAt packaging.toBuild after place text = true := by
    intro text htext
    have hroot : tree.find [] = some tree := rfl
    rw [is_file_at_bundled hroot h.noLinks rfl] at htext
    rw [is_file_at_bundled hplace h.noLinks rfl]
    exact htext
  unfold Project.pluginCandidate
  by_cases hplain : isFileAt packaging.toBuild after place plugin.executable = true
  · rw [if_neg (by simp [hplain])]
    exact hplain
  · obtain hfile | ⟨hsuffix, hfile⟩ := h.plugins plugin hplugin
    · exact absurd (hsame _ hfile) hplain
    · rw [if_pos (by simp [hplain, hsuffix, hsame _ hfile])]
      exact hsame _ hfile

/-- A plugin of the project starts from the bundle if its path makes it executable there. -/
theorem plugin (h : Materialized packaging disk context bootstrap tree)
    (hplace : after.find place = some tree) (hbundled : bundled.root = place)
    {plugin : RustPluginConfig} (hplugin : plugin ∈ bootstrap.rustPlugins)
    (hnamed : Project.NamesBundled packaging.toBuild plugin.executable) :
    (∃ last, bundled.resolvePluginExecutable packaging.toBuild after plugin.executable =
        .ok last) ↔
      (packaging.operatingSystem ≠ .windows → ∀ names,
        projectComponents packaging.toBuild plugin.executable = some names →
        executablePath (osString "app" :: names) = true) := by
  have hfile := h.plugin_candidate hplace hplugin
  obtain ⟨names, hnames, _⟩ := components_of_file (h.is_directory hplace) hfile
  obtain ⟨last, hlast, hfound⟩ := is_file_at_resolved.mp hfile
  have hget : (projectComponents packaging.toBuild (Project.pluginCandidate packaging.toBuild after
      place plugin.executable)).getD [] = names := by
    rw [hnames]
    rfl
  obtain ⟨rfl, _⟩ := (resolve_path_bundled hplace h.noLinks hget).mp hlast
  obtain ⟨contents, mode, hfind⟩ := is_file_iff.mp hfound
  have htree : tree.find names = some (.file contents mode) := by
    rw [Disk.find_append, hplace] at hfind
    exact hfind
  -- no suffix is tried where modes are looked at
  have hcandidate : packaging.operatingSystem ≠ .windows →
      projectComponents packaging.toBuild plugin.executable = some names := by
    intro hunix
    have hsuffix : exeSuffix packaging.toBuild = "" := if_neg hunix
    unfold Project.pluginCandidate at hnames
    rw [hsuffix, if_neg (by simp)] at hnames
    exact hnames
  simp only [Project.resolve_plugin_executable_ok, hbundled]
  constructor
  · rintro ⟨other, _, hother, _, contents', mode', hfind', hmode⟩ hunix names' hnames'
    rw [hlast] at hother
    cases hother
    rw [hfind] at hfind'
    cases hfind'
    rw [hcandidate hunix] at hnames'
    cases hnames'
    have hmode := hmode hunix
    rw [h.modes hunix names contents mode htree] at hmode
    by_contra hplain
    rw [if_neg hplain] at hmode
    exact hmode rfl
  · intro hexecutable
    refine ⟨_, hnamed, hlast, List.prefix_append place names, contents, mode, hfind, ?_⟩
    intro hunix
    rw [h.modes hunix names contents mode htree,
      if_pos (hexecutable hunix names (hcandidate hunix))]
    decide

/-- An entry of the project is one of the bundle if it is public there and nothing keeps it
out. -/
theorem entry (h : Materialized packaging disk context bootstrap tree)
    (hplace : after.find place = some tree) (hbundled : bundled.root = place)
    (hcontext : context.projectRoot = project.root)
    (hroot : Disk.isDirectory (disk.find project.root) = true) {text : String}
    (hentry : ∃ resolved, project.resolveEntry packaging.toBuild disk text = .ok resolved) :
    (∃ last, bundled.resolveEntry packaging.toBuild after text = .ok last) ↔
      ∃ rest, projectComponents packaging.toBuild text = some (osString "resources" :: rest) ∧
        Kept packaging.toBuild disk context project.root [] (osString "resources" :: rest) := by
  obtain ⟨resolved, hresolved⟩ := hentry
  obtain ⟨hasset, hfile⟩ := Project.resolve_entry_ok.mp hresolved
  simp only [Project.resolve_entry_ok]
  exact h.public_asset hplace hbundled hcontext hroot hasset hfile

/-- An icon of the project is one of the bundle if nothing keeps it out and its contents go with
the extension that the manifest gives it. -/
theorem icon (h : Materialized packaging disk context bootstrap tree)
    (hplace : after.find place = some tree) (hbundled : bundled.root = place)
    (hcontext : context.projectRoot = project.root)
    (hroot : Disk.isDirectory (disk.find project.root) = true) {text : String}
    {resolved : Location}
    (hicon : project.resolveIcon packaging.toBuild disk text = .ok resolved) :
    (∃ last, bundled.resolveIcon packaging.toBuild after text = .ok last) ↔
      (∃ rest, projectComponents packaging.toBuild text = some (osString "resources" :: rest) ∧
        Kept packaging.toBuild disk context project.root [] (osString "resources" :: rest)) ∧
      ∀ contents mode, disk.find resolved = some (.file contents mode) →
        validateIcon (iconExtension packaging.toBuild text) contents = .ok () := by
  obtain ⟨hasset, contents, mode, hfind, hlength, _⟩ := Project.resolve_icon_ok.mp hicon
  have hfile : Disk.isFile (disk.find resolved) = true := is_file_iff.mpr ⟨contents, mode, hfind⟩
  have hpublic := h.public_asset hplace hbundled hcontext hroot hasset hfile
  -- what the bundle has under a public path has the contents of the project's file
  have hsame : ∀ {rest last},
      projectComponents packaging.toBuild text = some (osString "resources" :: rest) →
      Project.PublicAsset packaging.toBuild after bundled text last →
      Disk.isFile (after.find last) = true →
      (∃ mode', after.find last = some (.file contents mode')) ∧
        lowerExtension last = iconExtension packaging.toBuild text := by
    intro rest last hnames hlast hfound
    have hget : (projectComponents packaging.toBuild text).getD [] =
        osString "resources" :: rest := by
      rw [hnames]
      rfl
    have hresolves := hlast.resolves
    rw [hbundled] at hresolves
    obtain ⟨rfl, _⟩ := (resolve_path_bundled hplace h.noLinks hget).mp hresolves
    obtain ⟨contents', mode', htree⟩ := is_file_iff.mp hfound
    have hinner : tree.find (osString "resources" :: rest) = some (.file contents' mode') := by
      rw [Disk.find_append, hplace] at htree
      exact htree
    have hother : ∀ {name}, osString "resources" ≠ name →
        osString "resources" :: rest ≠ [name] := fun hne heq => hne (List.cons.inj heq).1
    obtain ⟨source, mode'', hplaced, hcontents⟩ :=
      h.contents _ contents' mode' (hother (by decide)) (hother (by decide)) hinner
    have hsource := ((resolve_path_ok hget).mp hasset.resolves).1
    rw [hcontext, hsource] at hplaced
    cases hplaced
    rw [hfind] at hcontents
    cases hcontents
    refine ⟨⟨mode', htree⟩, ?_⟩
    unfold lowerExtension iconExtension
    rw [hnames, Option.bind_some, List.getLast?_append_of_ne_nil _ (List.cons_ne_nil _ _)]
    cases (osString "resources" :: rest).getLast? with
    | none => rfl
    | some name => rfl
  constructor
  · rintro ⟨last, hlast⟩
    obtain ⟨hbundle, contents', mode', htree, _, hchecked⟩ := Project.resolve_icon_ok.mp hlast
    have hfound := is_file_iff.mpr ⟨contents', mode', htree⟩
    obtain ⟨rest, hnames, hkept⟩ := hpublic.mp ⟨last, hbundle, hfound⟩
    obtain ⟨⟨mode'', htree'⟩, hextension⟩ := hsame hnames hbundle hfound
    rw [htree] at htree'
    cases htree'
    refine ⟨⟨rest, hnames, hkept⟩, fun contents' mode' hfind' => ?_⟩
    rw [hfind] at hfind'
    cases hfind'
    rw [← hextension]
    exact hchecked
  · rintro ⟨⟨rest, hnames, hkept⟩, hchecked⟩
    obtain ⟨last, hbundle, hfound⟩ := hpublic.mpr ⟨rest, hnames, hkept⟩
    obtain ⟨⟨mode', htree⟩, hextension⟩ := hsame hnames hbundle hfound
    refine ⟨last, Project.resolve_icon_ok.mpr ⟨hbundle, contents, mode', htree, hlength, ?_⟩⟩
    rw [hextension]
    exact hchecked contents mode hfind

/-- The bundle is discovered as a project if neither of the two PHP files is kept out. -/
theorem discovered (h : Materialized packaging disk context bootstrap tree)
    (hplace : after.find place = some tree)
    (hcontext : context.projectRoot = project.root)
    (happ : isFileAt packaging.toBuild disk project.root "app.php" = true)
    (hautoload : isFileAt packaging.toBuild disk project.root "vendor/autoload.php" = true) :
    Project.discover packaging.toBuild after place = .ok bundled ↔
      bundled = ⟨place, place ++ [osString "app.php"]⟩ ∧
        Kept packaging.toBuild disk context project.root [] [osString "app.php"] ∧
        Kept packaging.toBuild disk context project.root []
          [osString "vendor", osString "autoload.php"] := by
  have hdirectory := h.is_directory hplace
  have hcomposer : isFileAt packaging.toBuild after place "composer.json" = true := by
    rw [is_file_at_bundled hplace h.noLinks components_composer]
    exact ⟨ends_in_name (by decide), h.manifest⟩
  have hpath : after.canonicalize [] place = .ok place := by
    have hfound : after.find ([] ++ place) = some tree := hplace
    refine Disk.canonicalize_found hfound ?_
    rintro target rfl
    rw [hplace] at hdirectory
    cases hdirectory
  rw [discover_ok]
  constructor
  · rintro ⟨root, rfl, hroot, _, hmain, _, hload⟩
    rw [hpath] at hroot
    cases hroot
    have hmain := ((h.file_at hplace components_app).mp hmain).2
    have hload := ((h.file_at hplace components_autoload).mp hload).2
    rw [hcontext] at hmain hload
    exact ⟨rfl, hmain, hload⟩
  · rintro ⟨rfl, hmain, hload⟩
    refine ⟨place, rfl, hpath, hdirectory, ?_, hcomposer, ?_⟩
    · rw [h.file_at hplace components_app, hcontext]
      exact ⟨happ, hmain⟩
    · rw [h.file_at hplace components_autoload, hcontext]
      exact ⟨hautoload, hload⟩

end Materialized

/-- A bundle that `materialize_bundle` built is a project for its bootstrap, with the processes
of the project, exactly if nothing that the bootstrap names is kept out of it. -/
theorem bundle_complete_iff (packaging : Packaging) (disk after tree : Disk)
    (path place app output : Location) (fuel : Nat) (project : Project) (bootstrap : Bootstrap)
    (hproject : Project.discover packaging.toBuild disk path = .ok project)
    (hbootstrap : project.validateBootstrap packaging.toPlatform disk bootstrap = .ok ())
    (hbundle : materializeBundle packaging disk fuel project bootstrap app output = .ok tree)
    (hplace : after.find place = some tree) :
    Complete packaging.toPlatform disk project bootstrap after place ↔
      Carried packaging.toPlatform disk project bootstrap
        (copyContext project bootstrap output) := by
  obtain ⟨root, hsame, _, hroot, happ, _, hautoload⟩ := discover_ok.mp hproject
  have hsame : project.root = root := by rw [hsame]
  rw [← hsame] at hroot happ hautoload
  obtain ⟨hvalid, hwindows, ⟨icon, hicon⟩, hplugins⟩ :=
    Project.validate_bootstrap_ok.mp hbootstrap
  have h := materialize_bundle_ok hroot hbundle
  have hprocess : ∀ process ∈ bootstrap.capabilities.processes,
      InProject packaging.toBuild disk project process.executable →
      ∃ names, projectComponents packaging.toBuild process.executable = some names ∧
        (isFileAt packaging.toBuild after place process.executable = true ↔
          Kept packaging.toBuild disk (copyContext project bootstrap output) project.root []
            names) := by
    rintro process _ ⟨found, hfound, _, hfile⟩
    have hat := is_file_at_resolved.mpr ⟨found, hfound, hfile⟩
    obtain ⟨names, hnames, _⟩ := components_of_file hroot hat
    have hget : (projectComponents packaging.toBuild process.executable).getD [] = names := by
      rw [hnames]
      rfl
    refine ⟨names, hnames, ?_⟩
    rw [h.file_at hplace hget]
    exact ⟨fun hboth => hboth.2, fun hkept => ⟨hat, hkept⟩⟩
  have hnamed : ∀ plugin ∈ bootstrap.rustPlugins,
      Project.NamesBundled packaging.toBuild plugin.executable := by
    intro plugin hplugin
    obtain ⟨resolved, hresolved⟩ := hplugins plugin hplugin
    exact (Project.resolve_plugin_executable_ok.mp hresolved).1
  constructor
  · intro hcomplete
    obtain ⟨bundled, hbundled, haccepted⟩ := hcomplete.accepted
    obtain ⟨rfl, hmain, hload⟩ := (h.discovered hplace rfl happ hautoload).mp hbundled
    obtain ⟨_, hentries, hicons, hstarts⟩ := Project.validate_bootstrap_ok.mp haccepted
    obtain ⟨hiconKept, hiconChecked⟩ := (h.icon hplace rfl rfl hroot hicon).mp hicons
    refine ⟨hmain, hload, fun asset hasset => ?_, ?_, ?_, ?_⟩
    · rcases List.mem_cons.mp hasset with rfl | hasset
      · exact hiconKept
      · obtain ⟨window, hwindow, rfl⟩ := List.mem_map.mp hasset
        exact (h.entry hplace rfl rfl hroot (hwindows window hwindow)).mp (hentries window hwindow)
    · intro resolved contents mode hresolved hfind
      obtain ⟨hasset, _⟩ := Project.resolve_icon_ok.mp hicon
      rw [hasset.resolves] at hresolved
      cases hresolved
      exact hiconChecked contents mode hfind
    · intro hunix plugin hplugin
      exact (h.plugin hplace rfl hplugin (hnamed plugin hplugin)).mp (hstarts plugin hplugin) hunix
    · intro process hmem hinside names hnames
      obtain ⟨other, hother, hkept⟩ := hprocess process hmem hinside
      rw [hnames] at hother
      cases hother
      exact hkept.mp (hcomplete.processes process hmem hinside)
  · intro hcarried
    have hfound := (h.discovered hplace rfl happ hautoload).mpr
      ⟨rfl, hcarried.application, hcarried.autoload⟩
    refine ⟨⟨_, hfound, ?_⟩, ?_⟩
    · refine Project.validate_bootstrap_ok.mpr ⟨hvalid, ?_, ?_, ?_⟩
      · intro window hwindow
        refine (h.entry hplace rfl rfl hroot (hwindows window hwindow)).mpr (hcarried.assets _ ?_)
        exact List.mem_cons_of_mem _ (List.mem_map_of_mem hwindow)
      · refine (h.icon hplace rfl rfl hroot hicon).mpr ⟨hcarried.assets _ List.mem_cons_self, ?_⟩
        intro contents mode hfind
        obtain ⟨hasset, _⟩ := Project.resolve_icon_ok.mp hicon
        exact hcarried.icon icon contents mode hasset.resolves hfind
      · intro plugin hplugin
        refine (h.plugin hplace rfl hplugin (hnamed plugin hplugin)).mpr fun hunix => ?_
        exact hcarried.plugins hunix plugin hplugin
    · intro process hmem hinside
      obtain ⟨names, hnames, hkept⟩ := hprocess process hmem hinside
      exact hkept.mpr (hcarried.processes process hmem hinside names hnames)

/-! ## The gallery application -/

/-- A packager whose JSON parser knows the empty object. -/
def galleryPackaging : Packaging where
  toPlatform := notesPlatform
  parseJson bytes :=
    if bytes = osString "\x7b\x7d" then .ok (.object [])
    else .error "expected value at line 1 column 1"
  outside _ := .ok ()

/-- The application with this entry for its window. -/
def galleryBootstrap (entry : String) : Bootstrap where
  manifest :=
    { identifier := "com.example.gallery", name := "Gallery", version := "1.0.0"
      description := "", publisher := "Example", category := .graphics
      icon := "resources/icon.svg" }
  windows := [{ notesWindow "main" with entry := entry }]
  commandTimeoutMs := 5000
  workstation := notesWorkstation

def galleryFile (contents : String) : Disk := .file (osString contents) 0o644

/-- The files of the application, with these beside its icon. -/
def galleryFiles (composer : String) (assets : List (OsString × Disk)) : Disk :=
  .directory [
    (osString "app.php", galleryFile "<?php"),
    (osString "composer.json", galleryFile composer),
    (osString "vendor", .directory [(osString "autoload.php", galleryFile "<?php")]),
    (osString "resources",
      .directory ((osString "icon.svg", galleryFile "<svg></svg>") :: assets))]

def galleryAssets : List (OsString × Disk) := [(osString "index.html", galleryFile "gallery")]

/-- The same page, in a directory `dist`. -/
def galleryDist : List (OsString × Disk) := [(osString "dist", .directory galleryAssets)]

def galleryDisk (assets : List (OsString × Disk)) : Disk :=
  .directory [(osString "gallery", galleryFiles "\x7b\x7d" assets)]

def galleryProject : Project := ⟨[osString "gallery"], [osString "gallery", osString "app.php"]⟩

/-- The bundle of the gallery has everything. -/
theorem gallery_carried :
    Carried galleryPackaging.toPlatform (galleryDisk galleryAssets) galleryProject
      (galleryBootstrap "resources/index.html")
      (copyContext galleryProject (galleryBootstrap "resources/index.html") [osString "out"]) := by
  refine (bundle_complete_iff galleryPackaging (galleryDisk galleryAssets)
    (galleryFiles "\x7b\x7d\n" galleryAssets) (galleryFiles "\x7b\x7d\n" galleryAssets)
    [osString "gallery"] [] [osString "out", osString "app"] [osString "out"] 4 galleryProject
    (galleryBootstrap "resources/index.html") (by decide +kernel) (by decide +kernel) rfl rfl).mp ?_
  refine ⟨⟨⟨[], [osString "app.php"]⟩, by decide +kernel, by decide +kernel⟩, ?_⟩
  intro process hprocess
  cases hprocess

/-- The bundle of the other one has lost the page, though the project was accepted. -/
theorem gallery_dist_lost :
    Project.discover galleryPackaging.toBuild (galleryDisk galleryDist) [osString "gallery"] =
        .ok galleryProject ∧
      galleryProject.validateBootstrap galleryPackaging.toPlatform (galleryDisk galleryDist)
        (galleryBootstrap "resources/dist/index.html") = .ok () ∧
      materializeBundle galleryPackaging (galleryDisk galleryDist) 4 galleryProject
        (galleryBootstrap "resources/dist/index.html") [osString "out", osString "app"]
        [osString "out"] = .ok (galleryFiles "\x7b\x7d\n" []) ∧
      ∀ bundled,
        Project.discover galleryPackaging.toBuild (galleryFiles "\x7b\x7d\n" []) [] =
          .ok bundled →
        bundled.validateBootstrap galleryPackaging.toPlatform (galleryFiles "\x7b\x7d\n" [])
          (galleryBootstrap "resources/dist/index.html") ≠ .ok () := by
  refine ⟨by decide +kernel, by decide +kernel, rfl, fun bundled hbundled => ?_⟩
  have hroot : Project.discover galleryPackaging.toBuild (galleryFiles "\x7b\x7d\n" []) [] =
      .ok ⟨[], [osString "app.php"]⟩ := by decide +kernel
  rw [hroot] at hbundled
  cases hbundled
  decide +kernel

end PamDesktop.Packager.Materialize
