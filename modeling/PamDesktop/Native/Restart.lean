import PamDesktop.Native.Grants

/-!
# What a restart makes of persistent grants

`NativeServices::prepare` creates every stored grant again from the path and the access that the
store has, and from what is at the path now. The kind of the grant is not stored:
`restored_authority_iff` says when the restored grant has the authority of the one that was given.
-/

namespace PamDesktop.Native

open Foundations Protocol

/-! ## Resolving -/

/-- `AuthorizedRoot`. -/
structure AuthorizedRoot where
  access : FileAccess
  path : Location
deriving DecidableEq

/-- `FileTarget`. -/
structure FileTarget where
  root : Option String
  grantId : Option String
  path : String

/-- `ResolvedTarget`. -/
structure ResolvedTarget where
  directory : Location
  relative : Location
  access : FileAccess
  displayName : String
  absolutePath : Option Location
deriving DecidableEq

/-- `validate_relative_path`. -/
def validateRelativePath (value : String) : Except NativeError Unit :=
  let names := (osString value).splitOn 47
  if (osString value).head? = some 47 ∨ (names.any fun name => name = [46, 46]) = true then
    .error (.invalid "Filesystem paths must be relative and cannot contain parent components.")
  else .ok ()

/-- The name of the last component, or another one. -/
def displayName (path : Location) (otherwise : String) : String :=
  match fileName path with
  | some name => toStringLossy name
  | none => otherwise

/-- `resolve`. -/
def resolve (roots : List (String × AuthorizedRoot)) (s : Grants) (target : FileTarget) :
    Except NativeError ResolvedTarget := do
  validateRelativePath target.path
  let path := components (osString target.path)
  match target.root, target.grantId with
  | some root, none =>
      match roots.lookup root with
      | none => .error (.permission ("Filesystem root " ++ debugText root ++
          " is not authorized by the PHP application."))
      | some authorized =>
          .ok ⟨authorized.path, path, authorized.access, displayName path root,
            some (authorized.path ++ path)⟩
  | none, some id =>
      if s.locks.grantsPoisoned then
        .error (.native "Cannot read the file grant" "lock is poisoned")
      else
        match s.grants.lookup id with
        | none => .error .invalidGrant
        | some grant =>
            let name := if target.path = "" then grant.name else displayName path grant.name
            match grant.kind with
            | .file =>
                if target.path ≠ "" then
                  .error (.invalid "A file grant cannot address a child path.")
                else .ok ⟨grant.directory, grant.relative, grant.access, name, some grant.path⟩
            | .directory =>
                .ok ⟨grant.directory, grant.relative ++ path, grant.access, name,
                  some (grant.path ++ path)⟩
  | _, _ => .error (.invalid "A file target must contain exactly one root or grantId.")

/-- Where a resolved target is. -/
def ResolvedTarget.place (target : ResolvedTarget) : Location := target.directory ++ target.relative

/-! ## Restoring -/

/-- The grants that `prepare` creates from the persistent ones. -/
def restoreGrants (files : Files) (persistent : PersistentGrants) : List (String × FileGrant) :=
  persistent.filterMap fun entry =>
    match createFileGrant files (components entry.2.path) entry.2.access with
    | .ok grant => some (entry.1, grant)
    | .error _ => none

/-- The part of `NativeServices::prepare` that is about grants. -/
def prepareGrants (reader : JsonReader) (files : Files) (stored : Option StoreFile) :
    Except String Grants := do
  let persistent ← loadPersistentGrants reader stored
  .ok ⟨restoreGrants files persistent.1, persistent.1, ⟨false, false⟩, stored⟩

/-- What can be granted now under a path: the kind, and the place that links in directories lead
to. -/
inductive Present (files : Files) (path : Location) (access : FileAccess) :
    FileEntryKind → Location → Prop
  | directory {place : Location} : files.symlinkMetadata path = .ok .directory →
      files.canonicalize path = .ok place → files.openDirectory place = .ok () →
      Present files path access .directory place
  | file {place : Location} {name : OsString} : files.symlinkMetadata path = .ok .file →
      files.canonicalize path = .ok (place ++ [name]) → name ≠ [46, 46] →
      files.openDirectory place = .ok () → Present files path access .file (place ++ [name])
  | missing {front place : Location} {name : OsString} {error : IoError} :
      files.symlinkMetadata path = .error error → error.kind = .notFound →
      access.canWrite = true → path = front ++ [name] → name ≠ [46, 46] →
      files.canonicalize front = .ok place → files.openDirectory place = .ok () →
      Present files path access .file (place ++ [name])

/-- A grant has the authority of one that was given for a thing of this kind at this path. -/
structure Within (roots : List (String × AuthorizedRoot)) (s : Grants) (id : String)
    (given : FileEntryKind) (allowed : FileAccess) (path : Location) (grant : FileGrant) :
    Prop where
  kind : grant.kind = given
  access : grant.access = allowed
  file : given = .file → ∀ target resolved, target.grantId = some id →
    resolve roots s target = .ok resolved → resolved.place = path
  directory : given = .directory → ∀ target resolved, target.grantId = some id →
    resolve roots s target = .ok resolved → path <+: resolved.place

theorem io_result_ok {α : Type} {context : String} {result : Except IoError α} {value : α} :
    ioResult context result = .ok value ↔ result = .ok value := by
  cases result with
  | error error => exact ⟨nofun, nofun⟩
  | ok found =>
      constructor
      · intro h
        cases h
        rfl
      · intro h
        cases h
        rfl

theorem file_name_some {path : Location} {name : OsString} (h : fileName path = some name) :
    path = path.dropLast ++ [name] ∧ name ≠ [46, 46] := by
  obtain ⟨hlast, hname⟩ := Option.filter_eq_some_iff.mp h
  exact ⟨(List.dropLast_append_getLast? name hlast).symm, of_decide_eq_true hname⟩

theorem file_name_append {place : Location} {name : OsString} (h : name ≠ [46, 46]) :
    fileName (place ++ [name]) = some name := by
  unfold fileName
  rw [List.getLast?_concat]
  exact Option.filter_eq_some_iff.mpr ⟨rfl, decide_eq_true h⟩

theorem parent_append (place : Location) (name : OsString) :
    parent (place ++ [name]) = some place := by
  unfold parent
  rw [List.dropLast_concat]
  cases place <;> rfl

theorem save_path_ok {files : Files} {path directory : Location} {name : OsString} :
    savePath files path = .ok (directory, name) ↔ ∃ front, path = front ++ [name] ∧
      name ≠ [46, 46] ∧ files.canonicalize front = .ok directory := by
  unfold savePath
  constructor
  · intro h
    cases hparent : parent path with
    | none =>
        rw [hparent] at h
        cases h
    | some front =>
        rw [hparent] at h
        obtain ⟨place, hplace, h⟩ := except_bind_ok.mp h
        rw [io_result_ok] at hplace
        cases hname : fileName path with
        | none =>
            rw [hname] at h
            cases h
        | some last =>
            rw [hname] at h
            cases h
            obtain ⟨hpath, hdots⟩ := file_name_some hname
            have hfront : front = path.dropLast := by
              unfold parent at hparent
              split at hparent
              · cases hparent
              · exact (Option.some.inj hparent).symm
            rw [hfront] at hplace
            exact ⟨path.dropLast, hpath, hdots, hplace⟩
  · intro h
    obtain ⟨front, rfl, hname, hplace⟩ := h
    rw [parent_append, file_name_append hname]
    dsimp only
    rw [hplace]
    rfl

theorem select_file {files : Files} {path : Location} {chosen : Selected}
    (h : selectExisting files path .file = .ok chosen) :
    ∃ name, files.canonicalize path = .ok (chosen.directory ++ [name]) ∧ name ≠ [46, 46] ∧
      chosen.relative = [name] ∧ chosen.kind = .file := by
  unfold selectExisting at h
  rw [if_neg nofun] at h
  cases hcanonical : files.canonicalize path with
  | error error =>
      rw [hcanonical] at h
      cases h
  | ok canonical =>
      rw [hcanonical] at h
      dsimp only at h
      cases hparent : parent canonical with
      | none =>
          rw [hparent] at h
          cases h
      | some directory =>
          cases hname : fileName canonical with
          | none =>
              rw [hparent, hname] at h
              cases h
          | some name =>
              rw [hparent, hname] at h
              cases h
              obtain ⟨hpath, hdots⟩ := file_name_some hname
              rw [hpath, parent_append] at hparent
              cases hparent
              exact ⟨name, congrArg Except.ok hpath, hdots, rfl, rfl⟩

theorem select_directory {files : Files} {path : Location} {chosen : Selected}
    (h : selectExisting files path .directory = .ok chosen) :
    files.canonicalize path = .ok chosen.directory ∧ chosen.relative = [] ∧
      chosen.kind = .directory := by
  unfold selectExisting at h
  rw [if_neg nofun] at h
  cases hcanonical : files.canonicalize path with
  | error error =>
      rw [hcanonical] at h
      cases h
  | ok canonical =>
      rw [hcanonical] at h
      cases h
      exact ⟨rfl, rfl, rfl⟩

/-- Neither a link nor anything special is granted. -/
theorem select_nothing_else {files : Files} {path : Location} {fileType : FileType}
    {chosen : Selected} (hfile : fileType ≠ .file) (hdirectory : fileType ≠ .directory) :
    selectExisting files path fileType ≠ .ok chosen := by
  intro h
  unfold selectExisting at h
  cases fileType with
  | file => exact hfile rfl
  | directory => exact hdirectory rfl
  | symlink => cases h
  | other =>
      rw [if_neg nofun] at h
      cases hcanonical : files.canonicalize path with
      | error error =>
          rw [hcanonical] at h
          cases h
      | ok canonical =>
          rw [hcanonical] at h
          cases h

/-- What is opened for a path is what is there. -/
theorem select_path_present {files : Files} {path : Location} {access : FileAccess}
    {chosen : Selected} (h : selectPath files path access = .ok chosen)
    (hopened : files.openDirectory chosen.directory = .ok ()) :
    Present files path access chosen.kind (chosen.directory ++ chosen.relative) ∧
      (chosen.kind = .directory → chosen.relative = []) := by
  unfold selectPath at h
  cases hmetadata : files.symlinkMetadata path with
  | error error =>
      rw [hmetadata] at h
      dsimp only at h
      split at h
      · rename_i hmissing
        split at h
        · cases h
        · rename_i directory name hsave
          cases h
          obtain ⟨front, hpath, hname, hplace⟩ := save_path_ok.mp hsave
          exact ⟨.missing hmetadata hmissing.1 hmissing.2 hpath hname hplace hopened, nofun⟩
      · cases h
  | ok fileType =>
      rw [hmetadata] at h
      dsimp only at h
      cases fileType with
      | file =>
          obtain ⟨name, hcanonical, hname, hrelative, hkind⟩ := select_file h
          rw [hrelative, hkind]
          exact ⟨.file hmetadata hcanonical hname hopened, nofun⟩
      | directory =>
          obtain ⟨hcanonical, hrelative, hkind⟩ := select_directory h
          rw [hrelative, hkind, List.append_nil]
          exact ⟨.directory hmetadata hcanonical hopened, fun _ => rfl⟩
      | symlink => exact absurd h (select_nothing_else nofun nofun)
      | other => exact absurd h (select_nothing_else nofun nofun)

/-- What is granted is what is there. -/
theorem create_file_grant_present {files : Files} {path : Location} {access : FileAccess}
    {grant : FileGrant} (h : createFileGrant files path access = .ok grant) :
    Present files path access grant.kind grant.path ∧ grant.access = access ∧
      grant.path = grant.directory ++ grant.relative ∧
      (grant.kind = .directory → grant.relative = []) := by
  unfold createFileGrant at h
  obtain ⟨chosen, hchosen, h⟩ := except_bind_ok.mp h
  obtain ⟨⟨⟩, hopened, h⟩ := except_bind_ok.mp h
  rw [io_result_ok] at hopened
  cases h
  obtain ⟨hpresent, hrelative⟩ := select_path_present hchosen hopened
  exact ⟨hpresent, rfl, rfl, hrelative⟩

/-- And what is there is granted. -/
theorem create_file_grant_of_present {files : Files} {path place : Location} {access : FileAccess}
    {kind : FileEntryKind} (h : Present files path access kind place) :
    ∃ grant, createFileGrant files path access = .ok grant ∧ grant.kind = kind ∧
      grant.path = place := by
  have hselected : ∃ chosen, selectPath files path access = .ok chosen ∧
      files.openDirectory chosen.directory = .ok () ∧ chosen.kind = kind ∧
      chosen.directory ++ chosen.relative = place := by
    unfold selectPath
    cases h with
    | directory hmetadata hcanonical hopened =>
        rw [hmetadata]
        dsimp only
        unfold selectExisting
        rw [if_neg nofun, hcanonical]
        exact ⟨_, rfl, hopened, rfl, List.append_nil place⟩
    | @file place name hmetadata hcanonical hname hopened =>
        rw [hmetadata]
        dsimp only
        unfold selectExisting
        rw [if_neg nofun, hcanonical]
        dsimp only
        rw [parent_append, file_name_append hname]
        exact ⟨_, rfl, hopened, rfl, rfl⟩
    | @missing front place name error hmetadata hkind hwrite hpath hname hcanonical hopened =>
        refine ⟨⟨place, [name], .file, toStringLossy name⟩, ?_, hopened, rfl, rfl⟩
        rw [hmetadata]
        dsimp only
        rw [if_pos ⟨hkind, hwrite⟩, save_path_ok.mpr ⟨front, hpath, hname, hcanonical⟩]
  obtain ⟨chosen, hchosen, hopened, hkind, hplace⟩ := hselected
  refine ⟨⟨chosen.directory, chosen.relative, chosen.kind, access, chosen.name,
    chosen.directory ++ chosen.relative⟩, ?_, hkind, hplace⟩
  unfold createFileGrant
  rw [hchosen]
  show (ioResult _ (files.openDirectory chosen.directory) >>= _) = _
  rw [hopened]
  rfl

/-! ## The authority of a restored grant -/

theorem sorted_distinct {α : Type} {entries : List (String × α)} (h : Sorted α entries) :
    (entries.map Prod.fst).Nodup :=
  List.pairwise_map.mpr (h.imp fun hlt => ne_of_lt hlt)

theorem restore_keys {files : Files} {persistent : PersistentGrants} {id : String}
    (h : id ∈ (restoreGrants files persistent).map Prod.fst) : id ∈ persistent.map Prod.fst := by
  obtain ⟨restored, hrestored, rfl⟩ := List.mem_map.mp h
  obtain ⟨entry, hentry, hgrant⟩ := List.mem_filterMap.mp hrestored
  refine List.mem_map.mpr ⟨entry, hentry, ?_⟩
  split at hgrant
  · cases hgrant
    rfl
  · cases hgrant

/-- The grant that is restored under an id is created from the entry of this id. -/
theorem restore_lookup {files : Files} {persistent : PersistentGrants} {id : String}
    {entry : PersistentGrant} (hdistinct : (persistent.map Prod.fst).Nodup)
    (hentry : persistent.lookup id = some entry) (grant : FileGrant) :
    (restoreGrants files persistent).lookup id = some grant ↔
      createFileGrant files (components entry.path) entry.access = .ok grant := by
  induction persistent with
  | nil => cases hentry
  | cons head rest ih =>
      obtain ⟨other, found⟩ := head
      obtain ⟨hother, hrest⟩ := List.nodup_cons.mp hdistinct
      unfold restoreGrants
      rw [List.filterMap_cons]
      by_cases hid : id = other
      · subst hid
        rw [List.lookup_cons_self] at hentry
        cases hentry
        cases hcreated : createFileGrant files (components entry.path) entry.access with
        | error error =>
            have habsent : (restoreGrants files rest).lookup id = none :=
              lookup_absent fun h => hother (restore_keys h)
            constructor
            · intro h
              cases habsent.symm.trans h
            · nofun
        | ok created =>
            dsimp only
            rw [List.lookup_cons_self]
            constructor
            · intro h
              cases h
              rfl
            · intro h
              cases h
              rfl
      · have hne : (id == other) = false := beq_eq_false_iff_ne.mpr hid
        rw [List.lookup_cons, hne] at hentry
        have hlookup := ih hrest hentry
        cases createFileGrant files (components found.path) found.access with
        | error error => exact hlookup
        | ok created =>
            dsimp only
            rw [List.lookup_cons, hne]
            exact hlookup

theorem prepare_grants_ok {reader : JsonReader} {files : Files} {stored : Option StoreFile}
    {s : Grants} (h : prepareGrants reader files stored = .ok s) :
    ∃ loaded, loadPersistentGrants reader stored = .ok loaded ∧
      s = ⟨restoreGrants files loaded.1, loaded.1, ⟨false, false⟩, stored⟩ := by
  obtain ⟨loaded, hloaded, h⟩ := except_bind_ok.mp h
  cases h
  exact ⟨loaded, hloaded, rfl⟩

/-- A path of a grant leads to the file, or below the directory. -/
theorem resolve_place {roots : List (String × AuthorizedRoot)} {s : Grants} {id : String}
    {grant : FileGrant} {target : FileTarget} {resolved : ResolvedTarget}
    (hgrant : s.grants.lookup id = some grant)
    (hpath : grant.path = grant.directory ++ grant.relative)
    (htarget : target.grantId = some id) (h : resolve roots s target = .ok resolved) :
    (grant.kind = .file → resolved.place = grant.path) ∧
      (grant.kind = .directory → grant.path <+: resolved.place) := by
  unfold resolve at h
  obtain ⟨⟨⟩, -, h⟩ := except_bind_ok.mp h
  dsimp only at h
  rw [htarget] at h
  cases hroot : target.root with
  | some root =>
      rw [hroot] at h
      cases h
  | none =>
      rw [hroot] at h
      dsimp only at h
      split at h
      · cases h
      · rw [hgrant] at h
        dsimp only at h
        cases hkind : grant.kind with
        | file =>
            rw [hkind] at h
            dsimp only at h
            split at h
            · cases h
            · cases h
              exact ⟨fun _ => hpath.symm, nofun⟩
        | directory =>
            rw [hkind] at h
            cases h
            refine ⟨nofun, fun _ => ?_⟩
            unfold ResolvedTarget.place
            rw [hpath, ← List.append_assoc]
            exact List.prefix_append _ _

/-- The empty path leads to what was granted. -/
theorem resolve_self (roots : List (String × AuthorizedRoot)) {s : Grants} {id : String}
    {grant : FileGrant} (hgrant : s.grants.lookup id = some grant)
    (hlock : s.locks.grantsPoisoned = false)
    (hpath : grant.path = grant.directory ++ grant.relative) :
    ∃ resolved, resolve roots s ⟨none, some id, ""⟩ = .ok resolved ∧
      resolved.place = grant.path := by
  have hvalid : validateRelativePath "" = .ok () := by decide +kernel
  have hempty : components (osString "") = [] := by decide +kernel
  unfold resolve
  dsimp only
  rw [hvalid, hempty, hlock, hgrant]
  dsimp only
  cases hkind : grant.kind with
  | file => exact ⟨_, rfl, hpath.symm⟩
  | directory =>
      refine ⟨_, rfl, ?_⟩
      unfold ResolvedTarget.place
      rw [hpath, List.append_nil]

/-- The grants that a restart restores have the authority that they were given with exactly if
what is under their paths then is of the kind that it was: for a file at the same place, and for a
directory there or below. -/
theorem restored_authority_iff (reader : JsonReader) (files : Files) (stored : Option StoreFile)
    (s : Grants) (hprepared : prepareGrants reader files stored = .ok s)
    (roots : List (String × AuthorizedRoot)) (id : String) (entry : PersistentGrant)
    (hentry : s.persistentGrants.lookup id = some entry) (given : FileEntryKind) :
    (∀ grant, s.grants.lookup id = some grant →
      Within roots s id given entry.access (components entry.path) grant) ↔
    ∀ kind place, Present files (components entry.path) entry.access kind place → kind = given ∧
      (given = .file → place = components entry.path) ∧
      (given = .directory → components entry.path <+: place) := by
  obtain ⟨loaded, hloaded, hs⟩ := prepare_grants_ok hprepared
  have hlock : s.locks.grantsPoisoned = false := by rw [hs]
  have hlookup : ∀ grant, s.grants.lookup id = some grant ↔
      createFileGrant files (components entry.path) entry.access = .ok grant := by
    rw [hs] at hentry ⊢
    exact restore_lookup (sorted_distinct loaded.2) hentry
  constructor
  · intro h kind place hpresent
    obtain ⟨grant, hcreated, hkind, hplace⟩ := create_file_grant_of_present hpresent
    obtain ⟨_, _, hpath, _⟩ := create_file_grant_present hcreated
    have hgrant := (hlookup grant).mpr hcreated
    have hwithin := h grant hgrant
    obtain ⟨resolved, hresolved, hself⟩ := resolve_self roots hgrant hlock hpath
    refine ⟨hkind ▸ hwithin.kind, fun hgiven => ?_, fun hgiven => ?_⟩
    · rw [← hplace, ← hself]
      exact hwithin.file hgiven _ _ rfl hresolved
    · rw [← hplace, ← hself]
      exact hwithin.directory hgiven _ _ rfl hresolved
  · intro h grant hgrant
    have hcreated := (hlookup grant).mp hgrant
    obtain ⟨hpresent, haccess, hpath, _⟩ := create_file_grant_present hcreated
    obtain ⟨hkind, hfile, hdirectory⟩ := h _ _ hpresent
    refine ⟨hkind, haccess, fun hgiven target resolved htarget hresolved => ?_,
      fun hgiven target resolved htarget hresolved => ?_⟩
    · rw [(resolve_place hgrant hpath htarget hresolved).1 (hkind.trans hgiven)]
      exact hfile hgiven
    · exact (hdirectory hgiven).trans
        ((resolve_place hgrant hpath htarget hresolved).2 (hkind.trans hgiven))

/-! ### A file that becomes a directory -/

/-- A parser that knows one store. -/
def readerOf (grants : PersistentGrants) : JsonReader where
  parse := parserOf (grantsJson grants).bytes (grantsJson grants)
  error _ := "unknown text"

/-- The id that is drawn for the report. -/
def reportId : String := Updater.encodeHex (List.replicate 32 1)

/-- The grants when the file `/a` was selected for saving. -/
def reportGrants : PersistentGrants := [(reportId, ⟨[47, 97], .readWrite⟩)]

/-- The store then. -/
def reportStore : Option StoreFile := some ⟨false, (grantsJson reportGrants).bytes⟩

/-- What `prepare` makes of the store, if this is the grant it creates. -/
def reportRestored (grant : FileGrant) : Grants :=
  ⟨[(reportId, grant)], reportGrants, ⟨false, false⟩, reportStore⟩

/-- `/a` is a directory now, with a file `/a/b`. -/
def replacedFile : Disk := .directory [([97], .directory [([98], .file [] 0o644)])]

/-- The grant of `/a`, a file. -/
def reportGrant : FileGrant := ⟨[], [[97]], .file, .readWrite, "a", [[97]]⟩

/-- The grant of `/a`, a directory. -/
def replacedGrant : FileGrant := ⟨[[97]], [], .directory, .readWrite, "a", [[97]]⟩

/-- The grant of a file is restored as one of everything that is below its path. -/
theorem file_becomes_directory :
    grantPathWithPersistence [[103]] (undisturbed oneFile 1) [[97]] .readWrite true noGrants =
        (.ok ⟨reportId, "a", .file, .readWrite⟩, reportRestored reportGrant) ∧
      prepareGrants (readerOf reportGrants) (filesOf replacedFile) reportStore =
        .ok (reportRestored replacedGrant) ∧
      ¬ Within [] (reportRestored replacedGrant) reportId .file .readWrite [[97]] replacedGrant ∧
      resolve [] (reportRestored replacedGrant) ⟨none, some reportId, "b"⟩ =
        .ok ⟨[[97]], [[98]], .readWrite, "b", some [[97], [98]]⟩ := by
  refine ⟨by decide +kernel, by decide +kernel, fun h => ?_, by decide +kernel⟩
  cases h.kind

/-- A file that is still there is restored as what it was. -/
theorem report_restored : ∃ grant,
    (reportRestored reportGrant).grants.lookup reportId = some grant ∧
      Within [] (reportRestored reportGrant) reportId .file .readWrite [[97]] grant := by
  have hprepared : prepareGrants (readerOf reportGrants) (filesOf oneFile) reportStore =
      .ok (reportRestored reportGrant) := by decide +kernel
  have hpath : components [47, 97] = [[97]] := by decide +kernel
  have hmetadata : (filesOf oneFile).symlinkMetadata [[97]] = .ok .file := by decide +kernel
  have hcanonical : (filesOf oneFile).canonicalize [[97]] = .ok [[97]] := by decide +kernel
  have hwithin := restored_authority_iff (readerOf reportGrants) (filesOf oneFile) reportStore
    (reportRestored reportGrant) hprepared [] reportId ⟨[47, 97], .readWrite⟩ rfl .file
  rw [hpath] at hwithin
  have hrestored := hwithin.mpr fun kind place hpresent => by
    cases hpresent with
    | directory hother _ _ => cases hmetadata.symm.trans hother
    | file _ hfound _ _ =>
        exact ⟨rfl, fun _ => (Except.ok.inj (hcanonical.symm.trans hfound)).symm, nofun⟩
    | missing hother _ _ _ _ _ _ => cases hmetadata.symm.trans hother
  exact ⟨_, rfl, hrestored _ rfl⟩

end PamDesktop.Native
