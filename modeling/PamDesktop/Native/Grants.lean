import PamDesktop.Native.GrantStore
import PamDesktop.Updater.Publish

/-!
# Granting selected paths

A path that the user selects becomes a `FileGrant` under a random id, and with `persistent` also an
entry of the store. `Files` is what the file system answers at one moment, `Turn` everything that
the environment contributes to one path. `grant_path_with_persistence` undoes its own insertions
when the store cannot be written, and nothing else: `grants_atomic_iff` says when a failed call
leaves everything as it was.
-/

namespace PamDesktop.Native

open Foundations Protocol

/-! ## Paths -/

/-- `Path::parent`. -/
def parent (path : Location) : Option Location := if path.isEmpty then none else some path.dropLast

/-- `Path::file_name`. -/
def fileName (path : Location) : Option OsString :=
  path.getLast?.filter fun name => name ≠ [46, 46]

/-- The bytes of a path. -/
def pathBytes (path : Location) : OsString := 47 :: joinNames 47 path

/-- The components of an absolute path. -/
def components (path : OsString) : Location :=
  (path.splitOn 47).filter fun name => name ≠ [] ∧ name ≠ [46]

/-! ## Creating a grant -/

inductive FileType where
  | file | directory | symlink | other
deriving DecidableEq

/-- What the file system answers at one moment. -/
structure Files where
  symlinkMetadata : Location → Except IoError FileType
  canonicalize : Location → Except IoError Location
  openDirectory : Location → Except IoError Unit

/-- `FileEntryKind`. -/
inductive FileEntryKind where
  | file | directory
deriving DecidableEq

/-- `FileGrant`. The directory is the one that was opened under this path. -/
structure FileGrant where
  directory : Location
  relative : Location
  kind : FileEntryKind
  access : FileAccess
  name : String
  path : Location
deriving DecidableEq

/-- What is opened for a grant: the directory, the path from there on, the kind and the name. -/
structure Selected where
  directory : Location
  relative : Location
  kind : FileEntryKind
  name : String

/-- What is opened for something that is there. -/
def selectExisting (files : Files) (selected : Location) (fileType : FileType) :
    Except NativeError Selected :=
  if fileType = .symlink then
    .error (.permission "Symbolic links cannot become external file grants.")
  else
    match files.canonicalize selected, fileType with
    | .error error, _ => .error (.io "Cannot resolve the selected path" error)
    | .ok canonical, .directory =>
        let name := match fileName canonical with
          | some name => toStringLossy name
          | none => displayed canonical
        .ok ⟨canonical, [], .directory, name⟩
    | .ok canonical, .file =>
        match parent canonical, fileName canonical with
        | none, _ => .error (.invalid "The selected file has no parent directory.")
        | some _, none => .error (.invalid "The selected file has no filename.")
        | some directory, some name => .ok ⟨directory, [name], .file, toStringLossy name⟩
    | .ok _, _ => .error (.invalid "Only regular files and directories can become grants.")

/-- The path of a file that is still to be saved. -/
def savePath (files : Files) (selected : Location) : Except NativeError (Location × OsString) :=
  match parent selected with
  | none => .error (.invalid "The selected save path has no parent directory.")
  | some directory => do
      let directory ← ioResult "Cannot resolve the save directory" (files.canonicalize directory)
      match fileName selected with
      | none => .error (.invalid "The selected save path has no filename.")
      | some name => .ok (directory, name)

/-- What `create_file_grant` opens for a path. -/
def selectPath (files : Files) (selected : Location) (access : FileAccess) :
    Except NativeError Selected :=
  match files.symlinkMetadata selected with
  | .ok fileType => selectExisting files selected fileType
  | .error error =>
      if error.kind = .notFound ∧ access.canWrite then
        match savePath files selected with
        | .error error => .error error
        | .ok (directory, name) => .ok ⟨directory, [name], .file, toStringLossy name⟩
      else .error (.io "Cannot inspect the selected path" error)

/-- `create_file_grant`. -/
def createFileGrant (files : Files) (selected : Location) (access : FileAccess) :
    Except NativeError FileGrant := do
  let chosen ← selectPath files selected access
  ioResult "Cannot open the granted directory" (files.openDirectory chosen.directory)
  .ok ⟨chosen.directory, chosen.relative, chosen.kind, access, chosen.name,
    chosen.directory ++ chosen.relative⟩

/-- `canonical_grant_target`. -/
def canonicalGrantTarget (files : Files) (selected : Location) (access : FileAccess) :
    Except NativeError Location :=
  match files.canonicalize selected with
  | .ok path => .ok path
  | .error error =>
      if error.kind = .notFound ∧ access.canWrite then do
        let (directory, name) ← savePath files selected
        .ok (directory ++ [name])
      else .error (.io "Cannot resolve the selected path" error)

/-! ## Granting -/

/-- The random bytes of a grant id. -/
abbrev Token := {bytes : List UInt8 // bytes.length = 32}

/-- `secure_grant_id`. -/
def secureGrantId : Except String Token → Except NativeError String
  | .ok token => .ok (Updater.encodeHex token.1)
  | .error error => .error (.native "Cannot create a secure file grant" error)

/-- What the environment contributes to granting one path. -/
structure Turn where
  created : Files
  random : Except String Token
  settled : Files
  writes : Writes

/-- Which of the two locks a panic has poisoned. -/
structure Locks where
  grantsPoisoned : Bool
  persistentPoisoned : Bool
deriving DecidableEq

/-- The grants of `NativeServices`, with the file that holds the persistent ones. -/
structure Grants where
  grants : List (String × FileGrant)
  persistentGrants : PersistentGrants
  locks : Locks
  stored : Option StoreFile
deriving DecidableEq

/-- `HashMap::insert`. -/
def insertGrant {α : Type} (id : String) (grant : α) (grants : List (String × α)) :
    List (String × α) :=
  (id, grant) :: grants.filter fun entry => entry.1 ≠ id

/-- `HashMap::remove`. -/
def removeGrant {α : Type} (id : String) (grants : List (String × α)) : List (String × α) :=
  grants.filter fun entry => entry.1 ≠ id

/-- `FileReference`. -/
structure FileReference where
  grantId : String
  name : String
  kind : FileEntryKind
  access : FileAccess
deriving DecidableEq

/-- The part of `grant_path_with_persistence` that stores the grant. -/
def persistGrant (storePath : Location) (turn : Turn) (selected : Location) (access : FileAccess)
    (id : String) (s : Grants) : Except NativeError Unit × Grants :=
  match canonicalGrantTarget turn.settled selected access with
  | .error error => (.error error, s)
  | .ok canonical =>
      if s.locks.persistentPoisoned then
        (.error (.native "Cannot store the persistent file grant" "lock is poisoned"), s)
      else
        let grants := insertGrant id ⟨pathBytes canonical, access⟩ s.persistentGrants
        match persistGrants turn.writes storePath grants with
        | .error error =>
            (.error error, { s with
              grants := removeGrant id s.grants
              persistentGrants := removeGrant id grants })
        | .ok bytes =>
            (.ok (), { s with persistentGrants := grants, stored := some ⟨false, bytes⟩ })

/-- `grant_path_with_persistence`. -/
def grantPathWithPersistence (storePath : Location) (turn : Turn) (selected : Location)
    (access : FileAccess) (persistent : Bool) (s : Grants) :
    Except NativeError FileReference × Grants :=
  match createFileGrant turn.created selected access with
  | .error error => (.error error, s)
  | .ok grant =>
      match secureGrantId turn.random with
      | .error error => (.error error, s)
      | .ok id =>
          if s.locks.grantsPoisoned then
            (.error (.native "Cannot store the file grant" "lock is poisoned"), s)
          else
            let s := { s with grants := insertGrant id grant s.grants }
            let reference : FileReference := ⟨id, grant.name, grant.kind, access⟩
            if persistent then
              match persistGrant storePath turn selected access id s with
              | (.error error, s) => (.error error, s)
              | (.ok (), s) => (.ok reference, s)
            else (.ok reference, s)

/-- A selected path, with what the environment contributes to it. -/
structure Selection where
  turn : Turn
  path : Location

/-- `grant_paths`: the first error ends the call. -/
def grantPaths (storePath : Location) (access : FileAccess) (persistent : Bool) :
    List Selection → Grants → Except NativeError (List FileReference) × Grants
  | [], s => (.ok [], s)
  | selection :: rest, s =>
      match grantPathWithPersistence storePath selection.turn selection.path access persistent
          s with
      | (.error error, s) => (.error error, s)
      | (.ok reference, s) =>
          match grantPaths storePath access persistent rest s with
          | (.error error, s) => (.error error, s)
          | (.ok references, s) => (.ok (reference :: references), s)

/-! ## All or nothing -/

section Atomic

variable (storePath : Location) (access : FileAccess) (persistent : Bool) (locks : Locks)

/-- A path has a grant in memory: it can be opened, and there is an id and a lock for it. -/
structure Creatable (selection : Selection) : Prop where
  created : ∃ grant, createFileGrant selection.turn.created selection.path access = .ok grant
  drawn : ∃ id, secureGrantId selection.turn.random = .ok id
  unlocked : locks.grantsPoisoned = false

/-- The entries of the store with one for this path. -/
def withEntry (selection : Selection) (others : PersistentGrants) : PersistentGrants :=
  match secureGrantId selection.turn.random,
      canonicalGrantTarget selection.turn.settled selection.path access with
  | .ok id, .ok canonical =>
      if persistent then (id, ⟨pathBytes canonical, access⟩) :: others else others
  | _, _ => others

/-- A path has an entry of the store: its place is found again and the lock is there. -/
structure Settled (selection : Selection) : Prop where
  found : ∃ canonical,
    canonicalGrantTarget selection.turn.settled selection.path access = .ok canonical
  unlocked : locks.persistentPoisoned = false

/-- A path can be granted, in a store that has these entries. -/
structure Grantable (others : PersistentGrants) (selection : Selection) : Prop where
  creatable : Creatable access locks selection
  settled : persistent = true → Settled access locks selection
  written : persistent = true → ∃ bytes, persistGrants selection.turn.writes storePath
    (withEntry access persistent selection others) = .ok bytes

/-- All of the paths can be granted one after the other. -/
def AllGrantable : PersistentGrants → List Selection → Prop
  | _, [] => True
  | others, selection :: rest =>
      Grantable storePath access persistent locks others selection ∧
        AllGrantable (withEntry access persistent selection others) rest

/-- A path has a grant in memory, but its place is not found again. -/
structure RefusedLate (selection : Selection) : Prop where
  persistent : persistent = true
  creatable : Creatable access locks selection
  unsettled : ¬ Settled access locks selection

end Atomic

/-- The ids that are drawn for the paths. -/
def drawnIds (selections : List Selection) : List String :=
  selections.filterMap fun selection => (secureGrantId selection.turn.random).toOption

/-- No id is drawn twice, and none is in use. -/
structure FreshIds (s : Grants) (selections : List Selection) : Prop where
  distinct : (drawnIds selections).Nodup
  unused : ∀ id ∈ drawnIds selections,
    id ∉ s.grants.map Prod.fst ∧ id ∉ s.persistentGrants.map Prod.fst

/-- If a call returns an error, it leaves everything as it was. -/
def AllOrNothing (s : Grants) (outcome : Except NativeError (List FileReference) × Grants) : Prop :=
  ∀ error, outcome.1 = .error error → outcome.2 = s

theorem insert_fresh {α : Type} {id : String} {grant : α} {grants : List (String × α)}
    (h : id ∉ grants.map Prod.fst) : insertGrant id grant grants = (id, grant) :: grants := by
  unfold insertGrant
  rw [List.filter_eq_self.mpr]
  intro entry hentry
  refine decide_eq_true ?_
  intro heq
  exact h (List.mem_map.mpr ⟨entry, hentry, heq⟩)

theorem remove_inserted {α : Type} {id : String} {grant : α} {grants : List (String × α)}
    (h : id ∉ grants.map Prod.fst) : removeGrant id (insertGrant id grant grants) = grants := by
  rw [insert_fresh h, removeGrant, List.filter_cons_of_neg (by simp), List.filter_eq_self]
  intro entry hentry
  refine decide_eq_true ?_
  intro heq
  exact h (List.mem_map.mpr ⟨entry, hentry, heq⟩)

section Steps

variable {storePath : Location} {access : FileAccess} {persistent : Bool} {s : Grants}
  {selection : Selection}

/-- What granting one path comes to. -/
inductive Outcome (storePath : Location) (access : FileAccess) (persistent : Bool) (s : Grants)
    (selection : Selection) : Except NativeError FileReference × Grants → Prop
  | granted {reference : FileReference} {id : String} {grant : FileGrant} {after : Grants} :
      Grantable storePath access persistent s.locks s.persistentGrants selection →
      secureGrantId selection.turn.random = .ok id → after.grants = (id, grant) :: s.grants →
      after.persistentGrants = withEntry access persistent selection s.persistentGrants →
      after.locks = s.locks → Outcome storePath access persistent s selection (.ok reference, after)
  | refused {error : NativeError} :
      ¬ Grantable storePath access persistent s.locks s.persistentGrants selection →
      ¬ RefusedLate access persistent s.locks selection →
      Outcome storePath access persistent s selection (.error error, s)
  | late {error : NativeError} {id : String} {grant : FileGrant} {after : Grants} :
      RefusedLate access persistent s.locks selection →
      secureGrantId selection.turn.random = .ok id → after.grants = (id, grant) :: s.grants →
      Outcome storePath access persistent s selection (.error error, after)

/-- What storing a grant comes to that is in memory already. -/
theorem persist_grant_outcome {id : String} {grant : FileGrant}
    (hcreatable : Creatable access s.locks selection)
    (hid : secureGrantId selection.turn.random = .ok id) (hgrants : id ∉ s.grants.map Prod.fst)
    (hentries : id ∉ s.persistentGrants.map Prod.fst) :
    Outcome storePath access true s selection
      (match persistGrant storePath selection.turn selection.path access id
          { s with grants := insertGrant id grant s.grants } with
        | (.error error, after) => (.error error, after)
        | (.ok (), after) => (.ok ⟨id, grant.name, grant.kind, access⟩, after)) := by
  unfold persistGrant
  cases hfound : canonicalGrantTarget selection.turn.settled selection.path access with
  | error error =>
      refine .late ⟨rfl, hcreatable, fun h => ?_⟩ hid (insert_fresh hgrants)
      obtain ⟨canonical, hcanonical⟩ := h.found
      cases hfound.symm.trans hcanonical
  | ok canonical =>
      have hwith : insertGrant id ⟨pathBytes canonical, access⟩ s.persistentGrants =
          withEntry access true selection s.persistentGrants := by
        unfold withEntry
        rw [hid, hfound, insert_fresh hentries]
        rfl
      cases hlock : s.locks.persistentPoisoned with
      | true =>
          refine .late ⟨rfl, hcreatable, fun h => ?_⟩ hid (insert_fresh hgrants)
          cases hlock.symm.trans h.unlocked
      | false =>
          have hsettled : Settled access s.locks selection := ⟨⟨canonical, hfound⟩, hlock⟩
          simp only [Bool.false_eq_true, if_false]
          cases hwritten : persistGrants selection.turn.writes storePath
              (insertGrant id ⟨pathBytes canonical, access⟩ s.persistentGrants) with
          | error error =>
              simp only [remove_inserted hgrants, remove_inserted hentries]
              refine .refused (fun h => ?_) fun h => h.unsettled hsettled
              obtain ⟨bytes, hbytes⟩ := h.written rfl
              rw [← hwith, hwritten] at hbytes
              cases hbytes
          | ok bytes =>
              refine .granted ⟨hcreatable, fun _ => hsettled, fun _ => ⟨bytes, ?_⟩⟩ hid
                (insert_fresh hgrants) hwith rfl
              rw [← hwith]
              exact hwritten

/-- A path for which no grant can be made leaves the grants as they are. -/
theorem uncreatable_refused {error : NativeError} (h : ¬ Creatable access s.locks selection) :
    Outcome storePath access persistent s selection (.error error, s) :=
  .refused (fun hgrantable => h hgrantable.creatable) fun hlate => h hlate.creatable

theorem grant_path_outcome
    (hfresh : ∀ id, secureGrantId selection.turn.random = .ok id →
      id ∉ s.grants.map Prod.fst ∧ id ∉ s.persistentGrants.map Prod.fst) :
    Outcome storePath access persistent s selection
      (grantPathWithPersistence storePath selection.turn selection.path access persistent s) := by
  unfold grantPathWithPersistence
  cases hcreated : createFileGrant selection.turn.created selection.path access with
  | error error =>
      refine uncreatable_refused fun h => ?_
      obtain ⟨grant, hgrant⟩ := h.created
      cases hcreated.symm.trans hgrant
  | ok grant =>
      cases hid : secureGrantId selection.turn.random with
      | error error =>
          refine uncreatable_refused fun h => ?_
          obtain ⟨id, hdrawn⟩ := h.drawn
          cases hid.symm.trans hdrawn
      | ok id =>
          obtain ⟨hgrants, hentries⟩ := hfresh id hid
          cases hlock : s.locks.grantsPoisoned with
          | true =>
              refine uncreatable_refused fun h => ?_
              cases hlock.symm.trans h.unlocked
          | false =>
              have hcreatable : Creatable access s.locks selection := ⟨⟨grant, hcreated⟩,
                ⟨id, hid⟩, hlock⟩
              cases hpersistent : persistent with
              | false =>
                  refine .granted ⟨hcreatable, nofun, nofun⟩ hid (insert_fresh hgrants) ?_ rfl
                  unfold withEntry
                  cases canonicalGrantTarget selection.turn.settled selection.path access <;>
                    cases secureGrantId selection.turn.random <;> rfl
              | true =>
                  subst hpersistent
                  exact persist_grant_outcome hcreatable hid hgrants hentries

/-! ### Runs -/

theorem FreshIds.head {s : Grants} {selection : Selection} {rest : List Selection}
    (h : FreshIds s (selection :: rest)) : ∀ id, secureGrantId selection.turn.random = .ok id →
      id ∉ s.grants.map Prod.fst ∧ id ∉ s.persistentGrants.map Prod.fst := by
  intro id hid
  refine h.unused id ?_
  unfold drawnIds
  rw [List.filterMap_cons, hid]
  exact List.mem_cons_self

/-- After a grant the ids of the other paths are still fresh. -/
theorem FreshIds.tail {s after : Grants} {selection : Selection} {rest : List Selection}
    {id : String} {grant : FileGrant} (h : FreshIds s (selection :: rest))
    (hid : secureGrantId selection.turn.random = .ok id)
    (hgrants : after.grants = (id, grant) :: s.grants)
    (hentries : after.persistentGrants = withEntry access persistent selection s.persistentGrants) :
    FreshIds after rest ∧ id ∉ drawnIds rest := by
  have hdrawn : drawnIds (selection :: rest) = id :: drawnIds rest := by
    unfold drawnIds
    rw [List.filterMap_cons, hid]
    rfl
  obtain ⟨hdistinct, hunused⟩ := h
  rw [hdrawn] at hdistinct hunused
  obtain ⟨hother, hrest⟩ := List.nodup_cons.mp hdistinct
  refine ⟨⟨hrest, fun other hmem => ?_⟩, hother⟩
  obtain ⟨hgrant, hentry⟩ := hunused other (List.mem_cons_of_mem _ hmem)
  have hne : other ≠ id := by
    intro heq
    rw [heq] at hmem
    exact hother hmem
  rw [hgrants, hentries]
  refine ⟨?_, ?_⟩
  · rw [List.map_cons, List.mem_cons, not_or]
    exact ⟨hne, hgrant⟩
  · unfold withEntry
    rw [hid]
    split
    · rename_i found _ hfound _
      cases hfound
      split
      · rw [List.map_cons, List.mem_cons, not_or]
        exact ⟨hne, hentry⟩
      · exact hentry
    · exact hentry

theorem grant_paths_refused {rest : List Selection} {error : NativeError} {after : Grants}
    (h : grantPathWithPersistence storePath selection.turn selection.path access persistent s =
      (.error error, after)) :
    grantPaths storePath access persistent (selection :: rest) s = (.error error, after) := by
  rw [grantPaths, h]

theorem grant_paths_granted {rest : List Selection} {reference : FileReference} {after : Grants}
    (h : grantPathWithPersistence storePath selection.turn selection.path access persistent s =
      (.ok reference, after)) :
    grantPaths storePath access persistent (selection :: rest) s =
      ((grantPaths storePath access persistent rest after).1.map (reference :: ·),
        (grantPaths storePath access persistent rest after).2) := by
  rw [grantPaths, h]
  dsimp only
  generalize grantPaths storePath access persistent rest after = result
  obtain ⟨error | references, final⟩ := result
  · rfl
  · rfl

/-- A call succeeds exactly if all of its paths can be granted. -/
theorem grant_paths_ok_iff {selections : List Selection} (hfresh : FreshIds s selections) :
    (∃ references, (grantPaths storePath access persistent selections s).1 = .ok references) ↔
      AllGrantable storePath access persistent s.locks s.persistentGrants selections := by
  induction selections generalizing s with
  | nil => exact ⟨fun _ => trivial, fun _ => ⟨[], rfl⟩⟩
  | cons selection rest ih =>
      have houtcome : Outcome storePath access persistent s selection _ :=
        grant_path_outcome hfresh.head
      rw [AllGrantable]
      generalize hstep : grantPathWithPersistence storePath selection.turn selection.path access
        persistent s = outcome at houtcome
      cases houtcome with
      | refused hnot _ =>
          rw [grant_paths_refused hstep]
          constructor
          · intro h
            obtain ⟨references, h⟩ := h
            cases h
          · intro h
            exact absurd h.1 hnot
      | late hlate _ _ =>
          rw [grant_paths_refused hstep]
          constructor
          · intro h
            obtain ⟨references, h⟩ := h
            cases h
          · intro h
            exact absurd (h.1.settled hlate.persistent) hlate.unsettled
      | @granted reference id grant after hgrantable hid hgrants hentries hlocks =>
          have hrest := ih (hfresh.tail hid hgrants hentries).1
          rw [hlocks, hentries] at hrest
          rw [grant_paths_granted hstep, and_iff_right hgrantable, ← hrest]
          cases (grantPaths storePath access persistent rest after).1 with
          | error error => exact ⟨nofun, nofun⟩
          | ok found => exact ⟨fun _ => ⟨found, rfl⟩, fun _ => ⟨reference :: found, rfl⟩⟩

/-- A grant in memory stays there while other paths are granted. -/
theorem grant_paths_keeps {selections : List Selection} {id : String}
    (hfresh : FreshIds s selections) (hdrawn : id ∉ drawnIds selections)
    (hid : id ∈ s.grants.map Prod.fst) :
    id ∈ (grantPaths storePath access persistent selections s).2.grants.map Prod.fst := by
  induction selections generalizing s with
  | nil => exact hid
  | cons selection rest ih =>
      have houtcome : Outcome storePath access persistent s selection _ :=
        grant_path_outcome hfresh.head
      generalize hstep : grantPathWithPersistence storePath selection.turn selection.path access
        persistent s = outcome at houtcome
      cases houtcome with
      | refused _ _ =>
          rw [grant_paths_refused hstep]
          exact hid
      | late _ _ hgrants =>
          rw [grant_paths_refused hstep, hgrants]
          exact List.mem_cons_of_mem _ hid
      | granted _ hother hgrants hentries _ =>
          rw [grant_paths_granted hstep]
          refine ih (hfresh.tail hother hgrants hentries).1 ?_ ?_
          · intro hmem
            refine hdrawn ?_
            unfold drawnIds
            rw [List.filterMap_cons, hother]
            exact List.mem_cons_of_mem _ hmem
          · rw [hgrants]
            exact List.mem_cons_of_mem _ hid

end Steps

/-- A failed call leaves everything as it was exactly if it fails with its first path, and not
after the grant of this path is in memory. -/
theorem grants_atomic_iff (storePath : Location) (access : FileAccess) (persistent : Bool)
    (s : Grants) (selections : List Selection) (hfresh : FreshIds s selections) :
    AllOrNothing s (grantPaths storePath access persistent selections s) ↔
      AllGrantable storePath access persistent s.locks s.persistentGrants selections ∨
      ∃ selection rest, selections = selection :: rest ∧
        ¬ Grantable storePath access persistent s.locks s.persistentGrants selection ∧
        ¬ RefusedLate access persistent s.locks selection := by
  by_cases hall : AllGrantable storePath access persistent s.locks s.persistentGrants selections
  · obtain ⟨references, hok⟩ := (grant_paths_ok_iff hfresh).mpr hall
    refine ⟨fun _ => .inl hall, fun _ error herror => ?_⟩
    rw [hok] at herror
    cases herror
  · have hfails : ∃ error,
        (grantPaths storePath access persistent selections s).1 = .error error := by
      cases hresult : (grantPaths storePath access persistent selections s).1 with
      | error error => exact ⟨error, rfl⟩
      | ok references => exact absurd ((grant_paths_ok_iff hfresh).mp ⟨references, hresult⟩) hall
    obtain ⟨error, herror⟩ := hfails
    cases selections with
    | nil => exact absurd trivial hall
    | cons selection rest =>
        have houtcome : Outcome storePath access persistent s selection _ :=
          grant_path_outcome hfresh.head
        generalize hstep : grantPathWithPersistence storePath selection.turn selection.path access
          persistent s = outcome at houtcome
        -- a grant in memory is a change
        have hchanged : ∀ (id : String) (final : Grants),
            secureGrantId selection.turn.random = .ok id → id ∈ final.grants.map Prod.fst →
            final ≠ s := by
          intro id final hid hmem heq
          rw [heq] at hmem
          exact (hfresh.head id hid).1 hmem
        cases houtcome with
        | refused hnot hlate =>
            rw [grant_paths_refused hstep]
            exact ⟨fun _ => .inr ⟨selection, rest, rfl, hnot, hlate⟩, fun _ _ _ => rfl⟩
        | @late error id grant after hlate hid hgrants =>
            rw [grant_paths_refused hstep]
            constructor
            · intro h
              refine absurd (h error rfl) (hchanged id after hid ?_)
              rw [hgrants]
              exact List.mem_cons_self
            · intro h
              obtain h | ⟨other, others, heq, _, hnot⟩ := h
              · exact absurd h hall
              · cases heq
                exact absurd hlate hnot
        | @granted reference id grant after hgrantable hid hgrants hentries hlocks =>
            obtain ⟨hrest, hdrawn⟩ := hfresh.tail hid hgrants hentries
            constructor
            · intro h
              refine absurd (h error herror) (hchanged id _ hid ?_)
              rw [grant_paths_granted hstep]
              refine grant_paths_keeps hrest hdrawn ?_
              rw [hgrants]
              exact List.mem_cons_self
            · intro h
              obtain h | ⟨other, others, heq, hnot, _⟩ := h
              · exact absurd h hall
              · cases heq
                exact absurd hgrantable hnot

/-! ### Two files of which one is gone -/

def ioErrorOf : PathError → IoError
  | .notFound => ⟨.notFound, PathError.notFound.text⟩
  | error => ⟨.other, error.text⟩

def fileTypeOf : Disk → FileType
  | .file _ _ => .file
  | .directory _ => .directory
  | .symlink _ => .symlink
  | .special => .other

/-- The answers of a disk on which everything may be read. -/
def filesOf (disk : Disk) : Files where
  symlinkMetadata path :=
    match path.getLast? with
    | none => .ok .directory
    | some name =>
        match disk.canonicalize [] path.dropLast with
        | .error error => .error (ioErrorOf error)
        | .ok place =>
            match disk.find (place ++ [name]) with
            | none => .error (ioErrorOf .notFound)
            | some node => .ok (fileTypeOf node)
  canonicalize path :=
    match disk.canonicalize [] path with
    | .error error => .error (ioErrorOf error)
    | .ok place => .ok place
  openDirectory place :=
    if Disk.isDirectory (disk.find place) then .ok () else .error (ioErrorOf .notADirectory)

theorem token_length (byte : UInt8) : (List.replicate 32 byte).length = 32 :=
  List.length_replicate

/-- A drawn id, and a store that can be written. -/
def undisturbed (disk : Disk) (byte : UInt8) : Turn where
  created := filesOf disk
  random := .ok ⟨List.replicate 32 byte, token_length byte⟩
  settled := filesOf disk
  writes := ⟨.ok (), .ok (), .ok (), .ok ()⟩

/-- `/a` is a file, and there is nothing else. -/
def oneFile : Disk := .directory [([97], .file [] 0o644)]

def noGrants : Grants := ⟨[], [], ⟨false, false⟩, none⟩

/-- The files `/a` and `/b` are selected, and `/b` has been removed meanwhile. -/
def twoSelected : List Selection :=
  [⟨undisturbed oneFile 1, [[97]]⟩, ⟨undisturbed oneFile 2, [[98]]⟩]

/-- The call fails, and the grant of the first file stays. -/
theorem first_grant_stays :
    ¬ AllOrNothing noGrants (grantPaths [[103]] .read true twoSelected noGrants) := by
  intro h
  have herror : (grantPaths [[103]] .read true twoSelected noGrants).1 =
      .error ⟨.resourceNotFound,
        "Cannot inspect the selected path: No such file or directory (os error 2)"⟩ := by
    decide +kernel
  have hgrants := congrArg (fun s : Grants => s.grants.length) (h _ herror)
  revert hgrants
  decide +kernel

/-- Nothing has changed after the missing file alone. -/
theorem missing_file_alone :
    AllOrNothing noGrants (grantPaths [[103]] .read true [⟨undisturbed oneFile 2, [[98]]⟩]
      noGrants) := by
  have hfresh : FreshIds noGrants [⟨undisturbed oneFile 2, [[98]]⟩] :=
    ⟨by decide +kernel, fun _ _ => ⟨List.not_mem_nil, List.not_mem_nil⟩⟩
  have hcreated : ¬ Creatable .read noGrants.locks ⟨undisturbed oneFile 2, [[98]]⟩ := by
    intro h
    obtain ⟨grant, hgrant⟩ := h.created
    have herror : createFileGrant (filesOf oneFile) [[98]] .read =
        .error ⟨.resourceNotFound,
          "Cannot inspect the selected path: No such file or directory (os error 2)"⟩ := by
      decide +kernel
    cases herror.symm.trans hgrant
  exact (grants_atomic_iff [[103]] .read true noGrants _ hfresh).mpr
    (.inr ⟨_, _, rfl, fun h => hcreated h.creatable, fun h => hcreated h.creatable⟩)

end PamDesktop.Native
