import Mathlib.Data.Finset.Card
import PamDesktop.Foundations.Recursion
import PamDesktop.Packager.Materialize

/-!
# Runs of the copy

`copy_directory` and `copy_project_symlink` call each other and share the set of the directories
that are being copied. Here they are programs over the calls that they make of the host and of that
set, so their runs are those of a recursive procedure. `copying_terminates` says that every run
ends on every disk, and what is in the set on the way.
-/

namespace PamDesktop.Packager.Copying

open Foundations Protocol Shell Procedure
open Materialize (CopyContext excludedPath)

/-- `fs::FileType`. -/
inductive FileType where
  | directory | file | symlink | special

/-- What copying asks of the host and of `active`. -/
inductive CopyCall where
  | canonicalize (path : Location)
  | insert (canonical : Location)
  | remove (canonical : Location)
  | readDir (source : Location)
  | fileType (source : Location) (name : OsString)
  | createDir (target : Location)
  | copy (source target : Location)
  | isDir (canonical : Location)
  | isFile (canonical : Location)

abbrev copySignature : Signature where
  Call := CopyCall
  Reply
    | .canonicalize _ => Except String Location
    | .insert _ => Bool
    | .remove _ => Unit
    | .readDir _ => Except String (List (Except String OsString))
    | .fileType _ _ => Except String FileType
    | .createDir _ => Except String Unit
    | .copy _ _ => Except String Unit
    | .isDir _ => Bool
    | .isFile _ => Bool

/-- The arguments of `copy_directory`. -/
structure Copy where
  source : Location
  destination : Location
  relative : List OsString

/-- The entry of this name: where it is, where it goes and where that is in the bundle. -/
def Copy.entry (call : Copy) (name : OsString) : Copy :=
  ⟨call.source ++ [name], call.destination ++ [name], call.relative ++ [name]⟩

abbrev CopyProgram := Program (copySignature.withSelf Copy String Unit) String

/-- Ask the host, or the set of active directories. -/
def ask (c : CopyCall) : CopyProgram (copySignature.Reply c) := perform (S := copySignature) c

def createDir (target : Location) : CopyProgram Unit :=
  (ask (.createDir target)).orFail fun error =>
    "cannot create " ++ displayed target ++ ": " ++ error

/-- `copy_project_symlink`. -/
def copyProjectSymlink (context : CopyContext) (link : Copy) : CopyProgram Unit := do
  let canonical ← (ask (.canonicalize link.source)).orFail fun error =>
    "cannot resolve symlink " ++ displayed link.source ++ ": " ++ error
  if !context.projectRoot.isPrefixOf canonical &&
      link.relative.head? != some (osString "vendor") then
    .fail ("bundle symlink escapes the project outside vendor: " ++ displayed link.source)
  else if context.buildOutput.isPrefixOf canonical then
    .fail ("bundle symlink points into the build output: " ++ displayed link.source)
  else do
    let isDir ← ask (.isDir canonical)
    if isDir then do
      createDir link.destination
      recur ⟨canonical, link.destination, link.relative⟩
    else do
      let isFile ← ask (.isFile canonical)
      if isFile then
        (ask (.copy canonical link.destination)).orFail fun error =>
          "cannot materialize " ++ displayed link.source ++ ": " ++ error
      else .fail ("unsupported project symlink: " ++ displayed link.source)

/-- What `copy_directory` does with an entry of this type. -/
def copyTyped (context : CopyContext) (entry : Copy) : FileType → CopyProgram Unit
  | .directory => do
      let canonical ← (ask (.canonicalize entry.source)).orFail fun error =>
        "cannot resolve " ++ displayed entry.source ++ ": " ++ error
      if context.buildOutput.isPrefixOf canonical then .done ()
      else do
        createDir entry.destination
        recur entry
  | .file =>
      (ask (.copy entry.source entry.destination)).orFail fun error =>
        "cannot copy " ++ displayed entry.source ++ ": " ++ error
  | .symlink => copyProjectSymlink context entry
  | .special => .fail ("unsupported project file type: " ++ displayed entry.source)

/-- The body of the loop of `copy_directory`. -/
def copyEntry (build : Build) (context : CopyContext) (call : Copy) :
    Except String OsString → CopyProgram Unit
  | .error error => .fail error
  | .ok name =>
      if excludedPath build (call.relative ++ [name]) context.excludes then .done ()
      else do
        let fileType ← (ask (.fileType call.source name)).orFail fun error =>
          "cannot inspect " ++ displayed (call.source ++ [name]) ++ ": " ++ error
        copyTyped context (call.entry name) fileType

/-- The loop of `copy_directory`. -/
def copyEntries (build : Build) (context : CopyContext) (call : Copy) :
    List (Except String OsString) → CopyProgram Unit
  | [] => .done ()
  | entry :: rest => do
      copyEntry build context call entry
      copyEntries build context call rest

/-- The closure of `copy_directory`, whose result comes back after the directory is no longer
active. -/
def copyListed (build : Build) (context : CopyContext) (call : Copy) : CopyProgram Unit := do
  let listed ← (ask (.readDir call.source)).orFail fun error =>
    "cannot read " ++ displayed call.source ++ ": " ++ error
  copyEntries build context call listed

/-- `copy_directory`. -/
def copyDirectory (build : Build) (context : CopyContext) :
    Procedure copySignature Copy String Unit := fun call => do
  let canonical ← (ask (.canonicalize call.source)).orFail fun error =>
    "cannot resolve " ++ displayed call.source ++ ": " ++ error
  if context.buildOutput.isPrefixOf canonical then .done ()
  else do
    let inserted ← ask (.insert canonical)
    if !inserted then .fail ("bundle symlink cycle detected at " ++ displayed call.source)
    else do
      let result ← (copyListed build context call).attempt
      ask (.remove canonical)
      Program.ofExcept result

/-! ## The host -/

/-- What the calls of `copy_directory` share: `active`, and the files that they have begun to copy,
each from where to where, the last one first. -/
structure CopyState where
  active : Finset Location
  copied : List (Location × Location)

/-- What the host adds to its disk: the order in which it lists the names of a directory, and
which calls it refuses with an error of its own. -/
structure CopyHost where
  order : Location → List OsString → List OsString
  lists : ∀ source names, (order source names).Perm names
  entry : Location → OsString → Except String Unit
  refuses : CopyCall → CopyState → Option String

/-- The answer to a call that the host may refuse. -/
def CopyHost.answer {α : Type} (host : CopyHost) (c : CopyCall) (s : CopyState)
    (reply : Except String α) : Except String α :=
  match host.refuses c s with
  | some error => .error error
  | none => reply

/-- What `read_dir` gives for a directory with these names. -/
def CopyHost.listing (host : CopyHost) (place : Location) (names : List OsString) :
    List (Except String OsString) :=
  (host.order place names).map fun name => (host.entry place name).map fun _ => name

/-- The type of an entry, links not followed. -/
def fileType : Disk → FileType
  | .file _ _ => .file
  | .directory _ => .directory
  | .symlink _ => .symlink
  | .special => .special

/-- Where the disk leads, with the text of its error. -/
def resolve (disk : Disk) (path : Location) : Except String Location :=
  (disk.canonicalize [] path).mapError PathError.text

/-- `fs::read_dir`. -/
def readDir (disk : Disk) (host : CopyHost) (source : Location) :
    Except String (List (Except String OsString)) := do
  let place ← resolve disk source
  match disk.find place with
  | some (.directory entries) => .ok (host.listing place (entries.map Prod.fst))
  | _ => .error PathError.notADirectory.text

/-- `DirEntry::file_type`. -/
def entryType (disk : Disk) (source : Location) (name : OsString) : Except String FileType := do
  let place ← resolve disk source
  match disk.find (place ++ [name]) with
  | some node => .ok (fileType node)
  | none => .error PathError.notFound.text

/-- What each call does. Whatever is copied is written outside of what is read. -/
def copyMachine (disk : Disk) (host : CopyHost) : Machine copySignature CopyState where
  perform
    | .canonicalize path, s => (host.answer (.canonicalize path) s (resolve disk path), s)
    | .insert canonical, s =>
        (!decide (canonical ∈ s.active), { s with active := insert canonical s.active })
    | .remove canonical, s => ((), { s with active := s.active.erase canonical })
    | .readDir source, s => (host.answer (.readDir source) s (readDir disk host source), s)
    | .fileType source name, s =>
        (host.answer (.fileType source name) s (entryType disk source name), s)
    | .createDir target, s => (host.answer (.createDir target) s (.ok ()), s)
    | .copy source target, s =>
        (host.answer (.copy source target) s (.ok ()),
          { s with copied := (source, target) :: s.copied })
    | .isDir canonical, s =>
        ((host.refuses (.isDir canonical) s).isNone && Disk.isDirectory (disk.find canonical), s)
    | .isFile canonical, s =>
        ((host.refuses (.isFile canonical) s).isNone && Disk.isFile (disk.find canonical), s)
  partway _ _ _ := False

section Steps

variable {build : Build} {disk : Disk} {context : CopyContext} {host : CopyHost}
  {contract : Contract Copy CopyState String Unit} {ok : Except String Unit → CopyState → Prop}
  {s : CopyState}

theorem answer_ok {α : Type} {c : CopyCall} {reply : Except String α} {value : α}
    (h : host.answer c s reply = .ok value) : reply = .ok value := by
  unfold CopyHost.answer at h
  split at h
  · cases h
  · exact h

theorem resolve_ok {path place : Location} (h : resolve disk path = .ok place) :
    disk.canonicalize [] path = .ok place := by
  unfold resolve at h
  cases hplace : disk.canonicalize [] path with
  | error error =>
      rw [hplace] at h
      cases h
  | ok canonical =>
      rw [hplace] at h
      cases h
      rfl

/-- Where an entry of a directory leads, if it may be copied: `relative` is where the directory
stands in the bundle. -/
inductive Leads (disk : Disk) (context : CopyContext) (directory : Location)
    (relative : List OsString) (name : OsString) : Location → Prop where
  | entry (node) : disk.find (directory ++ [name]) = some node →
      (∀ target, node ≠ .symlink target) → Leads disk context directory relative name
        (directory ++ [name])
  | link (target) : disk.find (directory ++ [name]) = some (.symlink (.ok target)) →
      (context.projectRoot <+: target ∨
        (relative ++ [name]).head? = some (osString "vendor")) →
      ¬ context.buildOutput <+: target → Leads disk context directory relative name target

/-- What is a directory or a file is where its path leads. -/
theorem settled {place : Location} (h : Disk.isDirectory (disk.find place) = true ∨
    Disk.isFile (disk.find place) = true) : disk.canonicalize [] place = .ok place := by
  cases hnode : disk.find place with
  | none =>
      rw [hnode] at h
      rcases h with h | h <;> cases h
  | some node =>
      have hfound : disk.find ([] ++ place) = some node := hnode
      refine Disk.canonicalize_found hfound fun target heq => ?_
      rw [hnode, heq] at h
      rcases h with h | h <;> cases h

/-- Where an entry of a directory leads. -/
theorem canonicalize_entry {source place : Location}
    (hplace : disk.canonicalize [] source = .ok place) (name : OsString) : disk.canonicalize [] (source ++ [name]) = disk.follow place name := by
  rw [Disk.canonicalize_append, hplace]
  dsimp only
  unfold Disk.canonicalize
  cases disk.follow place name <;> rfl

theorem meets_create_dir {target : Location} (h : ∀ result, ok result s) :
    Meets (copyMachine disk host) contract ok (createDir target) s := by
  refine Meets.orFail ?_
  unfold ask perform
  simp only [Meets]
  split
  · exact h _
  · exact h _
  · exact h _

/-- What copying a link comes to. -/
theorem meets_copy_project_symlink {directory : Location} {link : Copy} {relative : List OsString}
    {name : OsString} {target : Except PathError Location}
    (hlink : disk.find (directory ++ [name]) = some (.symlink target))
    (hsource : disk.canonicalize [] link.source = target)
    (hrelative : link.relative = relative ++ [name]) (hstay : ∀ result, ok result s)
    (hfile : ∀ source place, Leads disk context directory relative name place →
      Disk.isFile (disk.find place) = true → disk.canonicalize [] source = .ok place →
      ∀ result, ok result { s with copied := (source, link.destination) :: s.copied })
    (hcall : ∀ source place, Leads disk context directory relative name place →
      Disk.isDirectory (disk.find place) = true → ¬ context.buildOutput <+: place →
      disk.canonicalize [] source = .ok place →
      contract.pre ⟨source, link.destination, link.relative⟩ s ∧
        ∀ reply s', contract.post ⟨source, link.destination, link.relative⟩ s reply s' →
          ok reply s') :
    Meets (copyMachine disk host) contract ok (copyProjectSymlink context link) s := by
  unfold copyProjectSymlink
  refine Meets.bind (Meets.orFail ?_)
  unfold ask perform
  simp only [Meets]
  cases hreply : ((copyMachine disk host).perform (.canonicalize link.source) s).1 with
  | error error => exact hstay _
  | ok canonical =>
      obtain rfl : target = .ok canonical := hsource.symm.trans (resolve_ok (answer_ok hreply))
      dsimp only
      split
      · exact hstay _
      · rename_i hinside
        split
        · exact hstay _
        · rename_i houtput
          have hallowed : context.projectRoot <+: canonical ∨
              (relative ++ [name]).head? = some (osString "vendor") := by
            rw [← hrelative]
            rw [Bool.and_eq_true, not_and_or] at hinside
            exact hinside.imp (by simp) (by simp)
          have houtput : ¬ context.buildOutput <+: canonical := fun h =>
            houtput (List.isPrefixOf_iff_prefix.mpr h)
          have hleads := Leads.link canonical hlink hallowed houtput
          simp only [Program.bind_eq, Program.call_bind, Program.done_bind, Meets]
          split
          · rename_i hisDir
            have hdirectory : Disk.isDirectory (disk.find canonical) = true :=
              (Bool.and_eq_true_iff.mp hisDir).2
            refine Meets.bind (meets_create_dir fun result => ?_)
            cases result with
            | error error => exact hstay _
            | ok _ =>
                obtain ⟨hpre, hpost⟩ := hcall canonical canonical hleads hdirectory houtput
                  (settled (.inl hdirectory))
                exact meets_recur hpre hpost
          · simp only [Meets]
            split
            · rename_i hisFile
              have hfound : Disk.isFile (disk.find canonical) = true :=
                (Bool.and_eq_true_iff.mp hisFile).2
              have hcopied := hfile canonical canonical hleads hfound (settled (.inr hfound))
              refine Meets.orFail ?_
              simp only [Meets]
              split
              · exact hcopied _
              · exact hcopied _
              · exact hcopied _
            · exact hstay _

/-- What copying an entry of a directory comes to. -/
theorem meets_copy_entry {call : Copy} {place : Location} {name : OsString}
    (hplace : disk.canonicalize [] call.source = .ok place) (hstay : ∀ result, ok result s)
    (hfile : ∀ source target,
      excludedPath build (call.relative ++ [name]) context.excludes = false →
      Leads disk context place call.relative name target →
      Disk.isFile (disk.find target) = true → disk.canonicalize [] source = .ok target →
      ∀ result, ok result { s with copied := (source, call.destination ++ [name]) :: s.copied })
    (hcall : ∀ source target,
      excludedPath build (call.relative ++ [name]) context.excludes = false →
      Leads disk context place call.relative name target →
      Disk.isDirectory (disk.find target) = true → ¬ context.buildOutput <+: target →
      disk.canonicalize [] source = .ok target →
      contract.pre { call.entry name with source := source } s ∧
        ∀ reply s', contract.post { call.entry name with source := source } s reply s' →
          ok reply s') :
    Meets (copyMachine disk host) contract ok (copyEntry build context call (.ok name)) s := by
  rw [copyEntry]
  split
  · exact hstay _
  · rename_i hexcluded
    rw [Bool.not_eq_true] at hexcluded
    refine Meets.bind (Meets.orFail ?_)
    unfold ask perform
    simp only [Meets]
    cases hreply : ((copyMachine disk host).perform (.fileType call.source name) s).1 with
    | error error => exact hstay _
    | ok kind =>
        have hanswer := answer_ok hreply
        obtain ⟨canonical, hcanonical, hanswer⟩ := except_bind_ok.mp hanswer
        obtain rfl : canonical = place :=
          Except.ok.inj ((resolve_ok hcanonical).symm.trans hplace)
        cases hnode : disk.find (canonical ++ [name]) with
        | none =>
            rw [hnode] at hanswer
            cases hanswer
        | some node =>
            rw [hnode] at hanswer
            obtain rfl := Except.ok.inj hanswer
            have hsource := canonicalize_entry hplace name
            show Meets _ contract ok (copyTyped context (call.entry name) (fileType node)) s
            cases node with
            | file contents mode =>
                have hleads : Leads disk context canonical call.relative name
                    (canonical ++ [name]) := .entry _ hnode nofun
                have hfound : Disk.isFile (disk.find (canonical ++ [name])) = true := by
                  rw [hnode]
                  rfl
                rw [Disk.follow_found hnode nofun] at hsource
                have hcopied := hfile _ _ hexcluded hleads hfound hsource
                refine Meets.orFail ?_
                unfold ask perform
                simp only [Meets]
                split
                · exact hcopied _
                · exact hcopied _
                · exact hcopied _
            | directory entries =>
                have hleads : Leads disk context canonical call.relative name
                    (canonical ++ [name]) := .entry _ hnode nofun
                have hfound : Disk.isDirectory (disk.find (canonical ++ [name])) = true := by
                  rw [hnode]
                  rfl
                rw [Disk.follow_found hnode nofun] at hsource
                refine Meets.bind (Meets.orFail ?_)
                unfold ask perform
                simp only [Meets]
                cases hreply : ((copyMachine disk host).perform
                    (.canonicalize (call.entry name).source) s).1 with
                | error error => exact hstay _
                | ok resolved =>
                    obtain rfl : resolved = canonical ++ [name] :=
                      Except.ok.inj ((resolve_ok (answer_ok hreply)).symm.trans hsource)
                    dsimp only
                    split
                    · exact hstay _
                    · rename_i houtput
                      have houtput : ¬ context.buildOutput <+: canonical ++ [name] := fun h =>
                        houtput (List.isPrefixOf_iff_prefix.mpr h)
                      refine Meets.bind (meets_create_dir fun result => ?_)
                      cases result with
                      | error error => exact hstay _
                      | ok _ =>
                          obtain ⟨hpre, hpost⟩ :=
                            hcall _ _ hexcluded hleads hfound houtput hsource
                          exact meets_recur hpre hpost
            | symlink target =>
                rw [Disk.follow, hnode] at hsource
                refine meets_copy_project_symlink hnode hsource rfl hstay ?_ ?_
                · intro source place hleads hfound hsource
                  exact hfile source place hexcluded hleads hfound hsource
                · intro source place hleads hfound houtput hsource
                  exact hcall source place hexcluded hleads hfound houtput hsource
            | special => exact hstay _

/-- What every entry keeps, the loop keeps. -/
theorem meets_copy_entries {call : Copy} {listed : List (Except String OsString)}
    {inv : CopyState → Prop} (hs : inv s)
    (hentry : ∀ name s, inv s → Meets (copyMachine disk host) contract (fun _ s' => inv s')
      (copyEntry build context call (.ok name)) s) :
    Meets (copyMachine disk host) contract (fun _ s' => inv s')
      (copyEntries build context call listed) s := by
  induction listed generalizing s with
  | nil => exact hs
  | cons entry rest ih =>
      refine Meets.bind ?_
      cases entry with
      | error error => exact hs
      | ok name =>
          refine (hentry name s hs).conseq fun result s' hs' => ?_
          cases result with
          | error error => exact hs'
          | ok _ => exact ih hs'

/-- What copying a directory comes to: nothing, or what copying its entries does while it is
active. -/
theorem meets_copy_directory {call : Copy} (hstay : ∀ result, ok result s)
    (hcopy : ∀ place entries, disk.canonicalize [] call.source = .ok place →
      ¬ context.buildOutput <+: place → place ∉ s.active →
      disk.find place = some (.directory entries) →
      Meets (copyMachine disk host) contract
        (fun result s' => ok result { s' with active := s'.active.erase place })
        (copyEntries build context call (host.listing place (entries.map Prod.fst)))
        { s with active := insert place s.active }) :
    Meets (copyMachine disk host) contract ok (copyDirectory build context call) s := by
  unfold copyDirectory
  refine Meets.bind (Meets.orFail ?_)
  unfold ask perform
  simp only [Meets]
  cases hreply : ((copyMachine disk host).perform (.canonicalize call.source) s).1 with
  | error error => exact hstay _
  | ok place =>
      have hplace := resolve_ok (answer_ok hreply)
      dsimp only
      split
      · exact hstay _
      · rename_i houtput
        have houtput : ¬ context.buildOutput <+: place := fun h =>
          houtput (List.isPrefixOf_iff_prefix.mpr h)
        show Meets _ contract ok (if (!(!decide (place ∈ s.active))) = true then _ else _)
          { s with active := insert place s.active }
        by_cases hactive : place ∈ s.active
        · rw [if_pos (by simp [hactive]), Finset.insert_eq_of_mem hactive]
          exact hstay _
        · rw [if_neg (by simp [hactive])]
          have hback : (insert place s.active).erase place = s.active :=
            Finset.erase_insert hactive
          have hclose : ∀ result, ok result
              { s with active := (insert place s.active).erase place } := by
            rw [hback]
            exact hstay
          have hlisted : Meets (copyMachine disk host) contract
              (fun result s' => ok result { s' with active := s'.active.erase place })
              (copyListed build context call) { s with active := insert place s.active } := by
            refine Meets.bind (Meets.orFail ?_)
            unfold ask perform
            simp only [Meets]
            cases hlisting : ((copyMachine disk host).perform (.readDir call.source)
                { s with active := insert place s.active }).1 with
            | error error => exact hclose _
            | ok listed =>
                obtain ⟨canonical, hcanonical, hanswer⟩ := except_bind_ok.mp (answer_ok hlisting)
                obtain rfl : canonical = place :=
                  Except.ok.inj ((resolve_ok hcanonical).symm.trans hplace)
                split at hanswer
                · rename_i entries hentries
                  obtain rfl := Except.ok.inj hanswer
                  exact hcopy canonical entries hplace houtput hactive hentries
                · cases hanswer
          refine Meets.bind (Meets.attempt (hlisted.conseq fun result s' h => ?_))
          show Meets _ contract ok (Program.ofExcept result)
            { s' with active := s'.active.erase place }
          exact meets_of_except h

end Steps

/-! ## Nested calls -/

section Runs

variable {build : Build} {disk : Disk} {context : CopyContext} {host : CopyHost}

/-- What is known of a call that another call makes, while it copies the directory `place`. -/
structure Below (build : Build) (disk : Disk) (context : CopyContext)
    (outer inner : Copy × CopyState) (place : Location) : Prop where
  source : disk.canonicalize [] outer.1.source = .ok place
  outside : ¬ context.buildOutput <+: place
  fresh : place ∉ outer.2.active
  directory : Disk.isDirectory (disk.find place) = true
  active : inner.2.active = insert place outer.2.active
  entry : ∃ name target,
    excludedPath build (outer.1.relative ++ [name]) context.excludes = false ∧
    Leads disk context place outer.1.relative name target ∧
    Disk.isDirectory (disk.find target) = true ∧ ¬ context.buildOutput <+: target ∧
    disk.canonicalize [] inner.1.source = .ok target ∧
    inner.1 = { outer.1.entry name with source := inner.1.source }

/-- Every call leaves `active` as it was. -/
def activeKept : Contract Copy CopyState String Unit where
  pre _ _ := True
  post _ s _ s' := s'.active = s.active

/-- A call leaves `active` as it was if the calls in it do, of which this much is known. -/
theorem meets_below {contract : Contract Copy CopyState String Unit} {call : Copy} {s : CopyState}
    (hpre : ∀ inner t place, Below build disk context (call, s) (inner, t) place →
      contract.pre inner t)
    (hpost : ∀ inner t reply t', contract.post inner t reply t' → t'.active = t.active) :
    Meets (copyMachine disk host) contract (fun _ s' => s'.active = s.active)
      (copyDirectory build context call) s := by
  refine meets_copy_directory (fun _ => rfl) fun place entries hplace houtput hactive hfound => ?_
  have hdirectory : Disk.isDirectory (disk.find place) = true := by
    rw [hfound]
    rfl
  have hloop : Meets (copyMachine disk host) contract
      (fun _ s' => s'.active = insert place s.active)
      (copyEntries build context call (host.listing place (entries.map Prod.fst)))
      { s with active := insert place s.active } := by
    refine meets_copy_entries rfl fun name t ht => ?_
    refine meets_copy_entry hplace (fun _ => ht) (fun _ _ _ _ _ _ _ => ht) ?_
    intro source target hincluded hleads htarget hout hsource
    refine ⟨hpre _ t place ⟨hplace, houtput, hactive, hdirectory, ht, name, target, hincluded,
      hleads, htarget, hout, hsource, rfl⟩, fun reply t' h => ?_⟩
    exact (hpost _ t reply t' h).trans ht
  refine hloop.conseq fun result s' hs' => ?_
  dsimp only
  rw [hs', Finset.erase_insert hactive]

/-- Whatever a call comes to, `active` is as it was before. -/
theorem active_kept (fuel : Nat) :
    activeKept.Kept (exec (copyMachine disk host) (copyDirectory build context) fuel) :=
  exec_meets (fun _ _ _ => meets_below (fun _ _ _ _ => trivial) fun _ _ _ _ h => h) fuel

theorem nested_below {outer inner : Copy × CopyState}
    (h : Nested (copyMachine disk host) (copyDirectory build context) outer inner) :
    ∃ place, Below build disk context outer inner place := by
  let contract : Contract Copy CopyState String Unit :=
    ⟨fun call t => ∃ place, Below build disk context outer (call, t) place, activeKept.post⟩
  have hkept : ∀ fuel,
      contract.Kept (exec (copyMachine disk host) (copyDirectory build context) fuel) :=
    fun fuel call s reply s' _ hrun => active_kept fuel call s reply s' trivial hrun
  exact h.pre hkept (meets_below (fun _ _ place h => ⟨place, h⟩) fun _ _ _ _ h => h)

/-- The directories that are not being copied. -/
def remaining (disk : Disk) (s : CopyState) : Nat := (disk.directories.toFinset \ s.active).card

theorem remaining_below {outer inner : Copy × CopyState} {place : Location}
    (h : Below build disk context outer inner place) :
    remaining disk inner.2 < remaining disk outer.2 := by
  refine Finset.card_lt_card ?_
  rw [h.active, Finset.ssubset_iff_of_subset
    (Finset.sdiff_subset_sdiff subset_rfl (Finset.subset_insert _ _))]
  refine ⟨place, ?_, ?_⟩
  · exact Finset.mem_sdiff.mpr
      ⟨List.mem_toFinset.mpr (Disk.mem_directories h.directory), h.fresh⟩
  · exact fun hmem => (Finset.mem_sdiff.mp hmem).2 (Finset.mem_insert_self _ _)

/-- With more fuel than there are directories left, a call comes to its end. -/
theorem copy_directory_ends {fuel : Nat} {call : Copy} {s : CopyState}
    (hfuel : remaining disk s < fuel) :
    exec (copyMachine disk host) (copyDirectory build context) fuel call s ≠ none := by
  have hbody : ∀ call s, activeKept.pre call s → Meets (copyMachine disk host)
      ⟨fun b t => activeKept.pre b t ∧ remaining disk t < remaining disk s, activeKept.post⟩
      (fun _ _ => True) (copyDirectory build context call) s := by
    intro call s _
    refine Meets.conseq (meets_below ?_ fun _ _ _ _ h => h) fun _ _ _ => trivial
    exact fun inner t place h => ⟨trivial, remaining_below h⟩
  exact exec_total active_kept hbody trivial hfuel

/-! ## Chains of nested calls -/

/-- The directory that a call goes on to copy, if it comes that far. -/
def visits (disk : Disk) (context : CopyContext) (call : Copy × CopyState) : Option Location :=
  match disk.canonicalize [] call.1.source with
  | .error _ => none
  | .ok place =>
      if context.buildOutput.isPrefixOf place || decide (place ∈ call.2.active) then none
      else some place

theorem visits_some {call : Copy × CopyState} {place : Location} :
    visits disk context call = some place ↔ disk.canonicalize [] call.1.source = .ok place ∧
      ¬ context.buildOutput <+: place ∧ place ∉ call.2.active := by
  unfold visits
  cases disk.canonicalize [] call.1.source with
  | error error => simp
  | ok canonical =>
      dsimp only
      split
      · rename_i h
        simp only [Bool.or_eq_true, decide_eq_true_eq, List.isPrefixOf_iff_prefix] at h
        constructor
        · nofun
        · rintro ⟨heq, houtput, hactive⟩
          obtain rfl := Except.ok.inj heq
          exact absurd h (not_or.mpr ⟨houtput, hactive⟩)
      · rename_i h
        simp only [Bool.or_eq_true, decide_eq_true_eq, List.isPrefixOf_iff_prefix, not_or] at h
        constructor
        · intro heq
          obtain rfl := Option.some.inj heq
          exact ⟨rfl, h⟩
        · rintro ⟨heq, _⟩
          exact congrArg some (Except.ok.inj heq)

/-- The calls of this chain make each other. -/
abbrev Chain (build : Build) (disk : Disk) (context : CopyContext) (host : CopyHost)
    (chain : List (Copy × CopyState)) : Prop :=
  chain.IsChain (Nested (copyMachine disk host) (copyDirectory build context))

/-- Along a chain the directories that are copied are active, and differ. -/
theorem chain_active {chain : List (Copy × CopyState)} {first last : Copy × CopyState}
    (h : Chain build disk context host (chain ++ [last]))
    (hfirst : (chain ++ [last]).head? = some first) :
    last.2.active = first.2.active ∪ (chain.filterMap (visits disk context)).toFinset ∧
      (chain.filterMap (visits disk context)).Nodup ∧
      ∀ place ∈ chain.filterMap (visits disk context), place ∉ first.2.active := by
  induction chain generalizing first with
  | nil =>
      cases hfirst
      simp
  | cons outer rest ih =>
      cases hfirst
      obtain ⟨next, tail, hrest⟩ : ∃ next tail, rest ++ [last] = next :: tail :=
        List.exists_cons_of_ne_nil (by simp)
      rw [List.cons_append, hrest] at h
      obtain ⟨hnested, htail⟩ := List.isChain_cons_cons.mp h
      obtain ⟨place, hbelow⟩ := nested_below hnested
      have hvisits : visits disk context outer = some place :=
        visits_some.mpr ⟨hbelow.source, hbelow.outside, hbelow.fresh⟩
      rw [← hrest] at htail
      obtain ⟨hactive, hnodup, hfresh⟩ := ih htail (congrArg List.head? hrest)
      rw [hbelow.active] at hactive hfresh
      rw [List.filterMap_cons_some hvisits]
      refine ⟨?_, ?_, ?_⟩
      · rw [hactive, List.toFinset_cons, Finset.insert_union, Finset.union_insert]
      · refine List.nodup_cons.mpr ⟨fun hmem => ?_, hnodup⟩
        exact hfresh place hmem (Finset.mem_insert_self _ _)
      · intro other hother hmem
        obtain rfl | hother := List.mem_cons.mp hother
        · exact hbelow.fresh hmem
        · exact hfresh other hother (Finset.mem_insert_of_mem hmem)

/-- No chain visits a directory twice. -/
theorem chain_nodup {chain : List (Copy × CopyState)} {last : Copy × CopyState}
    (h : Chain build disk context host (chain ++ [last])) :
    ((chain ++ [last]).filterMap (visits disk context)).Nodup := by
  obtain ⟨first, tail, hfirst⟩ : ∃ first tail, chain ++ [last] = first :: tail :=
    List.exists_cons_of_ne_nil (by simp)
  obtain ⟨hactive, hnodup, hfresh⟩ := chain_active h (congrArg List.head? hfirst)
  rw [List.filterMap_append]
  cases hvisits : visits disk context last with
  | none =>
      rw [List.filterMap_cons_none hvisits, List.filterMap_nil, List.append_nil]
      exact hnodup
  | some place =>
      rw [List.filterMap_cons_some hvisits, List.filterMap_nil]
      refine List.nodup_append.mpr ⟨hnodup, List.nodup_singleton _, ?_⟩
      intro other hother other' hother' heq
      obtain rfl := List.mem_singleton.mp hother'
      refine (visits_some.mp hvisits).2.2 ?_
      rw [hactive, ← heq]
      exact Finset.mem_union_right _ (List.mem_toFinset.mpr hother)

/-! ## Cycles -/

/-- `copy_project`. -/
def start (context : CopyContext) (app : Location) : Copy × CopyState :=
  (⟨context.projectRoot, app, []⟩, ⟨∅, []⟩)

/-- Where the directories are that are being copied. -/
structure Rooted (disk : Disk) (context : CopyContext) (call : Copy × CopyState) : Prop where
  source : ∀ place, disk.canonicalize [] call.1.source = .ok place →
    context.projectRoot <+: place ∨ call.1.relative.head? = some (osString "vendor")
  active : ∀ place ∈ call.2.active, Disk.isDirectory (disk.find place) = true ∧
    ¬ context.buildOutput <+: place ∧
    (context.projectRoot <+: place ∨ call.1.relative.head? = some (osString "vendor"))

theorem rooted_start (hroot : Disk.isDirectory (disk.find context.projectRoot) = true)
    (app : Location) : Rooted disk context (start context app) := by
  constructor
  · intro place hplace
    obtain rfl := Except.ok.inj ((settled (.inl hroot)).symm.trans hplace)
    exact .inl List.prefix_rfl
  · intro place hplace
    cases hplace

theorem head_append {relative : List OsString} {name first : OsString}
    (h : relative.head? = some first) : (relative ++ [name]).head? = some first := by
  cases relative with
  | nil => cases h
  | cons other rest => exact h

theorem Below.rooted {outer inner : Copy × CopyState} {place : Location}
    (h : Below build disk context outer inner place) (houter : Rooted disk context outer) :
    Rooted disk context inner := by
  obtain ⟨name, target, _, hleads, _, _, htarget, hinner⟩ := h.entry
  have hrelative : inner.1.relative = outer.1.relative ++ [name] := by
    rw [hinner]
    rfl
  have hplace := houter.source place h.source
  constructor
  · intro other hother
    obtain rfl := Except.ok.inj (htarget.symm.trans hother)
    rw [hrelative]
    cases hleads with
    | entry node _ _ =>
        exact hplace.imp (fun hinside => hinside.trans (List.prefix_append _ _)) head_append
    | link _ _ hallowed _ => exact hallowed
  · intro other hother
    rw [h.active] at hother
    rw [hrelative]
    obtain rfl | hother := Finset.mem_insert.mp hother
    · exact ⟨h.directory, h.outside, hplace.imp id head_append⟩
    · obtain ⟨hdirectory, houtput, hinside⟩ := houter.active other hother
      exact ⟨hdirectory, houtput, hinside.imp id head_append⟩

theorem chain_rooted {chain : List (Copy × CopyState)} {first last : Copy × CopyState}
    (h : Chain build disk context host (chain ++ [last]))
    (hfirst : (chain ++ [last]).head? = some first) (hrooted : Rooted disk context first) :
    Rooted disk context last := by
  induction chain generalizing first with
  | nil =>
      cases hfirst
      exact hrooted
  | cons outer rest ih =>
      cases hfirst
      obtain ⟨next, tail, hrest⟩ : ∃ next tail, rest ++ [last] = next :: tail :=
        List.exists_cons_of_ne_nil (by simp)
      rw [List.cons_append, hrest] at h
      obtain ⟨hnested, htail⟩ := List.isChain_cons_cons.mp h
      obtain ⟨place, hbelow⟩ := nested_below hnested
      rw [← hrest] at htail
      exact ih htail (congrArg List.head? hrest) (hbelow.rooted hrooted)

theorem perform_canonicalize {path place : Location} {s : CopyState}
    (hrefuses : host.refuses (.canonicalize path) s = none)
    (hplace : disk.canonicalize [] path = .ok place) :
    (copyMachine disk host).perform (.canonicalize path) s = (.ok place, s) := by
  show (host.answer _ s (resolve disk path), s) = _
  rw [CopyHost.answer, hrefuses, resolve, hplace]
  rfl

theorem perform_file_type {source place : Location} {name : OsString} {node : Disk}
    {s : CopyState} (hrefuses : host.refuses (.fileType source name) s = none)
    (hplace : disk.canonicalize [] source = .ok place)
    (hnode : disk.find (place ++ [name]) = some node) :
    (copyMachine disk host).perform (.fileType source name) s = (.ok (fileType node), s) := by
  have htype : entryType disk source name = .ok (fileType node) := by
    unfold entryType resolve
    refine except_bind_ok.mpr ⟨place, by rw [hplace]; rfl, ?_⟩
    rw [hnode]
  show (host.answer _ s (entryType disk source name), s) = _
  rw [CopyHost.answer, hrefuses, htype]

/-- A directory that is being copied is not copied in itself. -/
theorem copy_directory_cycle {call : Copy} {place : Location} {s : CopyState}
    (hrefuses : host.refuses (.canonicalize call.source) s = none)
    (hplace : disk.canonicalize [] call.source = .ok place)
    (houtput : ¬ context.buildOutput <+: place) (hactive : place ∈ s.active) (fuel : Nat) :
    exec (copyMachine disk host) (copyDirectory build context) (fuel + 1) call s =
      some (.error ("bundle symlink cycle detected at " ++ displayed call.source), s) := by
  have hcanonical := perform_canonicalize hrefuses hplace
  have houtput : ¬ context.buildOutput.isPrefixOf place = true := fun h =>
    houtput (List.isPrefixOf_iff_prefix.mp h)
  have hinserted : (copyMachine disk host).perform (.insert place) s = (false, s) := by
    show (!decide (place ∈ s.active), { s with active := insert place s.active }) = _
    rw [Finset.insert_eq_of_mem hactive, decide_eq_true hactive]
    rfl
  rw [exec, copyDirectory]
  simp only [ask, perform, Program.orFail, Program.bind_eq, Program.call_bind, Program.done_bind,
    runWith, hcanonical, if_neg houtput, hinserted]
  rfl

/-- A directory that is not being copied is copied, whatever has been copied before. -/
theorem copy_directory_visits {call : Copy} {place : Location} {s : CopyState}
    (hrefuses : host.refuses (.canonicalize call.source) s = none)
    (hvisits : visits disk context (call, s) = some place) (fuel : Nat) :
    exec (copyMachine disk host) (copyDirectory build context) (fuel + 1) call s =
      (runWith (copyMachine disk host)
        (exec (copyMachine disk host) (copyDirectory build context) fuel)
        (copyListed build context call) { s with active := insert place s.active }).map
        fun outcome => (outcome.1,
          { outcome.2 with active := outcome.2.active.erase place }) := by
  obtain ⟨hplace, houtput, hactive⟩ := visits_some.mp hvisits
  have hcanonical := perform_canonicalize hrefuses hplace
  have houtput : ¬ context.buildOutput.isPrefixOf place = true := fun h =>
    houtput (List.isPrefixOf_iff_prefix.mp h)
  have hinserted : (copyMachine disk host).perform (.insert place) s =
      (true, { s with active := insert place s.active }) := by
    show (!decide (place ∈ s.active), _) = _
    rw [decide_eq_false hactive]
    rfl
  rw [exec, copyDirectory]
  simp only [ask, perform, Program.orFail, Program.bind_eq, Program.call_bind, Program.done_bind,
    runWith, hcanonical, if_neg houtput, hinserted, Bool.not_true, Bool.false_eq_true, if_false]
  rw [run_with_bind, run_with_attempt]
  cases runWith (copyMachine disk host)
      (exec (copyMachine disk host) (copyDirectory build context) fuel)
      (copyListed build context call) { s with active := insert place s.active } with
  | none => rfl
  | some outcome =>
      obtain ⟨result, after⟩ := outcome
      cases result <;> rfl

/-! ## Entries that the host does not refuse -/

section Quiet

variable {self : Calling Copy CopyState String Unit} {s : CopyState}
  (hrefuses : ∀ c, host.refuses c s = none)
include hrefuses

theorem copy_entry_typed {call : Copy} {place : Location} {name : OsString} {node : Disk}
    (hplace : disk.canonicalize [] call.source = .ok place)
    (hincluded : excludedPath build (call.relative ++ [name]) context.excludes = false)
    (hnode : disk.find (place ++ [name]) = some node) :
    runWith (copyMachine disk host) self (copyEntry build context call (.ok name)) s =
      runWith (copyMachine disk host) self
        (copyTyped context (call.entry name) (fileType node)) s := by
  have hkind := perform_file_type (hrefuses _) hplace hnode
  rw [copyEntry, if_neg (by rw [hincluded]; exact Bool.false_ne_true)]
  simp only [ask, perform, Program.orFail, Program.bind_eq, Program.call_bind, Program.done_bind,
    runWith]
  rw [hkind]
  rfl

theorem run_create_dir (target : Location) :
    runWith (copyMachine disk host) self (createDir target) s = some (.ok (), s) := by
  have hcreated : (copyMachine disk host).perform (.createDir target) s = (.ok (), s) := by
    show (host.answer _ s (.ok ()), s) = _
    rw [CopyHost.answer, hrefuses]
  simp only [createDir, ask, perform, Program.orFail, Program.call_bind, Program.done_bind, runWith]
  rw [hcreated]
  rfl

theorem perform_copy (source target : Location) :
    (copyMachine disk host).perform (.copy source target) s =
      (.ok (), { s with copied := (source, target) :: s.copied }) := by
  show (host.answer _ s (.ok ()), { s with copied := (source, target) :: s.copied }) = _
  rw [CopyHost.answer, hrefuses]

/-- What copying a link comes to that leads to where copying may go. -/
theorem copy_project_symlink_allowed {link : Copy} {target : Location}
    (hsource : disk.canonicalize [] link.source = .ok target)
    (hinside : context.projectRoot <+: target ∨
      link.relative.head? = some (osString "vendor"))
    (houtput : ¬ context.buildOutput <+: target) :
    runWith (copyMachine disk host) self (copyProjectSymlink context link) s =
      if Disk.isDirectory (disk.find target) then
        self ⟨target, link.destination, link.relative⟩ s
      else if Disk.isFile (disk.find target) then
        some (.ok (), { s with copied := (target, link.destination) :: s.copied })
      else some (.error ("unsupported project symlink: " ++ displayed link.source), s) := by
  have hresolved := perform_canonicalize (hrefuses _) hsource
  have hinside : ¬ (!context.projectRoot.isPrefixOf target &&
      link.relative.head? != some (osString "vendor")) = true := by
    rw [Bool.and_eq_true, not_and_or]
    exact hinside.imp (by simp) (by simp)
  have hoff : ¬ context.buildOutput.isPrefixOf target = true := fun h =>
    houtput (List.isPrefixOf_iff_prefix.mp h)
  have hisDir : (copyMachine disk host).perform (.isDir target) s =
      (Disk.isDirectory (disk.find target), s) := by
    show ((host.refuses _ s).isNone && _, s) = _
    rw [hrefuses]
    rfl
  have hisFile : (copyMachine disk host).perform (.isFile target) s =
      (Disk.isFile (disk.find target), s) := by
    show ((host.refuses _ s).isNone && _, s) = _
    rw [hrefuses]
    rfl
  simp only [copyProjectSymlink, ask, perform, Program.orFail, Program.bind_eq,
    Program.call_bind, Program.done_bind, runWith]
  rw [hresolved]
  simp only [Program.done_bind]
  rw [if_neg hinside, if_neg hoff]
  simp only [runWith]
  rw [hisDir]
  dsimp only
  by_cases hdirectory : Disk.isDirectory (disk.find target) = true
  · rw [if_pos hdirectory, if_pos hdirectory, run_with_bind, run_create_dir hrefuses]
    exact run_with_recur _ _ _
  · rw [if_neg hdirectory, if_neg hdirectory]
    simp only [runWith]
    rw [hisFile]
    dsimp only
    by_cases hfile : Disk.isFile (disk.find target) = true
    · rw [if_pos hfile, if_pos hfile]
      simp only [runWith]
      rw [perform_copy hrefuses]
      rfl
    · rw [if_neg hfile, if_neg hfile]
      rfl

/-- A link to a directory that is being copied is reported as a cycle. -/
theorem copy_entry_cycle {call : Copy} {place target : Location} {name : OsString}
    (hplace : disk.canonicalize [] call.source = .ok place)
    (hincluded : excludedPath build (call.relative ++ [name]) context.excludes = false)
    (hlink : disk.find (place ++ [name]) = some (.symlink (.ok target)))
    (hdirectory : Disk.isDirectory (disk.find target) = true)
    (hinside : context.projectRoot <+: target ∨
      (call.relative ++ [name]).head? = some (osString "vendor"))
    (houtput : ¬ context.buildOutput <+: target) (hactive : target ∈ s.active) (fuel : Nat) :
    runWith (copyMachine disk host)
        (exec (copyMachine disk host) (copyDirectory build context) (fuel + 1))
        (copyEntry build context call (.ok name)) s =
      some (.error ("bundle symlink cycle detected at " ++ displayed target), s) := by
  have hsource : disk.canonicalize [] (call.entry name).source = .ok target := by
    show disk.canonicalize [] (call.source ++ [name]) = .ok target
    rw [canonicalize_entry hplace name, Disk.follow, hlink]
  rw [copy_entry_typed hrefuses hplace hincluded hlink, fileType, copyTyped,
    copy_project_symlink_allowed hrefuses hsource hinside houtput, if_pos hdirectory]
  exact copy_directory_cycle (hrefuses _) (settled (.inl hdirectory)) houtput hactive fuel

end Quiet

/-! ## Termination -/

/-- Every run ends with one outcome. -/
theorem copy_directory_outcome (call : Copy) (s : CopyState) :
    ∃ result s', s'.active = s.active ∧ ∀ fuel, disk.directories.length < fuel →
      exec (copyMachine disk host) (copyDirectory build context) fuel call s =
        some (result, s') := by
  have hfew : remaining disk s ≤ disk.directories.length :=
    (Finset.card_le_card Finset.sdiff_subset).trans (List.toFinset_card_le _)
  have hends : exec (copyMachine disk host) (copyDirectory build context)
      (disk.directories.length + 1) call s ≠ none :=
    copy_directory_ends (Nat.lt_succ_of_le hfew)
  obtain ⟨⟨result, s'⟩, hrun⟩ := Option.ne_none_iff_exists'.mp hends
  refine ⟨result, s', active_kept _ call s result s' trivial hrun, fun fuel hfuel => ?_⟩
  exact exec_mono hfuel hrun

/-- Every call but those that change `active`. -/
def leavesActive : (copySignature.withSelf Copy String Unit).Call → Prop
  | .inl (.insert _) => False
  | .inl (.remove _) => False
  | _ => True

theorem create_dir_uses (target : Location) : (createDir target).Uses leavesActive :=
  Program.Uses.orFail ⟨trivial, fun _ => trivial⟩

theorem copy_project_symlink_uses (link : Copy) :
    (copyProjectSymlink context link).Uses leavesActive := by
  unfold copyProjectSymlink
  refine Program.Uses.bind (Program.Uses.orFail ⟨trivial, fun _ => trivial⟩) fun canonical => ?_
  split
  · trivial
  · split
    · trivial
    · refine ⟨trivial, fun isDir => ?_⟩
      simp only [Program.done_bind]
      split
      · exact (create_dir_uses _).bind fun _ => ⟨trivial, fun reply => Program.uses_of_except reply⟩
      · refine ⟨trivial, fun isFile => ?_⟩
        simp only [Program.done_bind]
        split
        · exact Program.Uses.orFail ⟨trivial, fun _ => trivial⟩
        · trivial

theorem meets_leaves_active {p : CopyProgram Unit} (hp : p.Uses leavesActive) (s : CopyState) :
    Meets (copyMachine disk host) activeKept (fun _ s' => s'.active = s.active) p s := by
  refine meets_invariant ?_ ?_ hp rfl
  · intro c t hallowed ht
    cases c with
    | insert canonical => exact hallowed.elim
    | remove canonical => exact hallowed.elim
    | canonicalize path => exact ht
    | readDir source => exact ht
    | fileType source name => exact ht
    | createDir target => exact ht
    | copy source target => exact ht
    | isDir canonical => exact ht
    | isFile canonical => exact ht
  · intro call t _ ht
    exact ⟨trivial, fun reply t' hpost => hpost.trans ht⟩

/-- Every run over a link ends with one outcome. -/
theorem copy_project_symlink_outcome (link : Copy) (s : CopyState) :
    ∃ result s', s'.active = s.active ∧ ∀ fuel, disk.directories.length < fuel →
      runWith (copyMachine disk host)
          (exec (copyMachine disk host) (copyDirectory build context) fuel)
          (copyProjectSymlink context link) s = some (result, s') := by
  have hmeets : Meets (copyMachine disk host) activeKept (fun _ s' => s'.active = s.active)
      (copyProjectSymlink context link) s :=
    meets_leaves_active (copy_project_symlink_uses link) s
  have hcalls : ∀ call t, activeKept.pre call t → exec (copyMachine disk host)
      (copyDirectory build context) (disk.directories.length + 1) call t ≠ none := by
    intro call t _ hnone
    obtain ⟨result, t', _, hrun⟩ := copy_directory_outcome call t
    rw [hrun _ (Nat.lt_succ_self _)] at hnone
    cases hnone
  have hends := hmeets.ends (active_kept _) hcalls
  obtain ⟨⟨result, s'⟩, hrun⟩ := Option.ne_none_iff_exists'.mp hends
  refine ⟨result, s', hmeets.run (active_kept _) hrun, fun fuel hfuel => ?_⟩
  exact run_with_mono (fun call t outcome h => exec_mono hfuel h) hrun

/-- What copying comes to on a disk with a host. -/
structure CopyingTerminates (build : Build) (disk : Disk) (context : CopyContext)
    (host : CopyHost) : Prop where
  /-- Every call of `copy_directory` ends, and `active` is then as it was before. -/
  directories : ∀ call s, ∃ result s', s'.active = s.active ∧
    ∀ fuel, disk.directories.length < fuel →
      exec (copyMachine disk host) (copyDirectory build context) fuel call s = some (result, s')
  /-- So does every call of `copy_project_symlink`. -/
  links : ∀ link s, ∃ result s', s'.active = s.active ∧
    ∀ fuel, disk.directories.length < fuel →
      runWith (copyMachine disk host)
          (exec (copyMachine disk host) (copyDirectory build context) fuel)
          (copyProjectSymlink context link) s = some (result, s')
  /-- The directories that a chain of nested calls visits differ, and those of the calls that have
  not ended are the active ones. -/
  chains : ∀ app chain last, Chain build disk context host (chain ++ [last]) →
    (chain ++ [last]).head? = some (start context app) →
    ((chain ++ [last]).filterMap (visits disk context)).Nodup ∧
      last.2.active = (chain.filterMap (visits disk context)).toFinset
  /-- A link to one of them is reported as a cycle. -/
  cycles : Disk.isDirectory (disk.find context.projectRoot) = true →
    ∀ app chain last place name target s fuel, Chain build disk context host (chain ++ [last]) →
      (chain ++ [last]).head? = some (start context app) →
      visits disk context last = some place →
      excludedPath build (last.1.relative ++ [name]) context.excludes = false →
      disk.find (place ++ [name]) = some (.symlink (.ok target)) →
      target ∈ (chain ++ [last]).filterMap (visits disk context) →
      s.active = insert place last.2.active → (∀ c, host.refuses c s = none) →
      runWith (copyMachine disk host)
          (exec (copyMachine disk host) (copyDirectory build context) (fuel + 1))
          (copyEntry build context last.1 (.ok name)) s =
        some (.error ("bundle symlink cycle detected at " ++ displayed target), s)
  /-- Any other directory is copied, whatever has been copied before. -/
  again : ∀ call s place fuel, visits disk context (call, s) = some place →
    host.refuses (.canonicalize call.source) s = none →
    exec (copyMachine disk host) (copyDirectory build context) (fuel + 1) call s =
      (runWith (copyMachine disk host)
        (exec (copyMachine disk host) (copyDirectory build context) fuel)
        (copyListed build context call) { s with active := insert place s.active }).map
        fun outcome => (outcome.1,
          { outcome.2 with active := outcome.2.active.erase place })

/-- Copying a project terminates on every graph of links. -/
theorem copying_terminates (build : Build) (disk : Disk) (context : CopyContext)
    (host : CopyHost) : CopyingTerminates build disk context host where
  directories := copy_directory_outcome
  links := copy_project_symlink_outcome
  chains := by
    intro app chain last hchain hstart
    obtain ⟨hactive, _, _⟩ := chain_active hchain hstart
    refine ⟨chain_nodup hchain, ?_⟩
    rw [hactive]
    exact Finset.empty_union _
  cycles := by
    intro hroot app chain last place name target s fuel hchain hstart hvisits hincluded hlink
      htarget hs hrefuses
    obtain ⟨hplace, houtput, hfresh⟩ := visits_some.mp hvisits
    have hrooted := chain_rooted hchain hstart (rooted_start hroot app)
    obtain ⟨hactive, _, _⟩ := chain_active hchain hstart
    have hdirectory : Disk.isDirectory (disk.find place) = true := by
      rw [Disk.find_append] at hlink
      obtain ⟨node, hnode, hchild⟩ := Option.bind_eq_some_iff.mp hlink
      obtain ⟨entries, rfl⟩ := Disk.find_below (hchild ▸ Option.some_ne_none _)
      rw [hnode]
      rfl
    have hmem : target ∈ insert place last.2.active := by
      rw [List.filterMap_append, List.filterMap_cons_some hvisits, List.filterMap_nil,
        List.mem_append, List.mem_singleton] at htarget
      rw [Finset.mem_insert, hactive]
      obtain htarget | rfl := htarget
      · exact .inr (Finset.mem_union_right _ (List.mem_toFinset.mpr htarget))
      · exact .inl rfl
    have hfacts : Disk.isDirectory (disk.find target) = true ∧ ¬ context.buildOutput <+: target ∧
        (context.projectRoot <+: target ∨
          last.1.relative.head? = some (osString "vendor")) := by
      obtain rfl | hother := Finset.mem_insert.mp hmem
      · exact ⟨hdirectory, houtput, hrooted.source _ hplace⟩
      · exact hrooted.active target hother
    exact copy_entry_cycle hrefuses hplace hincluded hlink hfacts.1 (hfacts.2.2.imp id head_append)
      hfacts.2.1 (hs ▸ hmem) fuel
  again := by
    intro call s place fuel hvisits hrefuses
    exact copy_directory_visits hrefuses hvisits fuel

end Runs

end PamDesktop.Packager.Copying
