import PamDesktop.Packager.Copying

/-!
# Links of a project

`excluded_path` is asked about the name by which an entry is reached, and a link is copied as what
it leads to. `confidential_iff` says on which disks nothing is copied that is excluded under its own
name: those on which no link that copying comes to smuggles.
-/

namespace PamDesktop.Packager.Copying

open Foundations Protocol Shell Procedure
open Materialize (CopyContext excludedPath)

/-! ## Where copying comes -/

/-- The directory is copied while these are active. -/
structure Opens (disk : Disk) (context : CopyContext) (active : Finset Location)
    (place : Location) : Prop where
  directory : Disk.isDirectory (disk.find place) = true
  outside : ¬ context.buildOutput <+: place
  fresh : place ∉ active

/-- The entry of a directory is not passed over, and leads to this place. -/
structure Reaches (build : Build) (disk : Disk) (context : CopyContext) (place : Location)
    (relative : List OsString) (name : OsString) (target : Location) : Prop where
  included : excludedPath build (relative ++ [name]) context.excludes = false
  leads : Leads disk context place relative name target

/-- `copy_directory` is called for this directory, as this part of the bundle, while these are
active. -/
inductive Entered (build : Build) (disk : Disk) (context : CopyContext) :
    Finset Location → Location → List OsString → Prop where
  | project : Entered build disk context ∅ context.projectRoot []
  | entry (active place relative name target) : Entered build disk context active place relative →
      Opens disk context active place → Reaches build disk context place relative name target →
      Disk.isDirectory (disk.find target) = true →
      Entered build disk context (insert place active) target (relative ++ [name])

/-- A file that may be copied. -/
def Copyable (build : Build) (disk : Disk) (context : CopyContext) (target : Location) : Prop :=
  ∃ active place relative name, Entered build disk context active place relative ∧
    Opens disk context active place ∧ Reaches build disk context place relative name target ∧
    Disk.isFile (disk.find target) = true

section Runs

variable {build : Build} {disk : Disk} {context : CopyContext} {host : CopyHost}

/-- Only such files are copied. -/
def copyingContract (build : Build) (disk : Disk) (context : CopyContext) :
    Contract Copy CopyState String Unit where
  pre call s := ∀ place, disk.canonicalize [] call.source = .ok place →
    Disk.isDirectory (disk.find place) = true →
    Entered build disk context s.active place call.relative
  post _ s _ s' := s'.active = s.active ∧ ∀ copied ∈ s'.copied, copied ∈ s.copied ∨
    ∃ target, disk.canonicalize [] copied.1 = .ok target ∧ Copyable build disk context target

theorem meets_copyable (call : Copy) (s : CopyState)
    (hpre : (copyingContract build disk context).pre call s) :
    Meets (copyMachine disk host) (copyingContract build disk context)
      ((copyingContract build disk context).post call s) (copyDirectory build context call) s := by
  refine meets_copy_directory (fun _ => ⟨rfl, fun _ h => .inl h⟩)
    fun place entries hplace houtput hactive hfound => ?_
  have hdirectory : Disk.isDirectory (disk.find place) = true := by
    rw [hfound]
    rfl
  have hentered := hpre place hplace hdirectory
  have hopens : Opens disk context s.active place := ⟨hdirectory, houtput, hactive⟩
  have hloop : Meets (copyMachine disk host) (copyingContract build disk context)
      (fun _ s' => s'.active = insert place s.active ∧ ∀ copied ∈ s'.copied, copied ∈ s.copied ∨
        ∃ target, disk.canonicalize [] copied.1 = .ok target ∧
          Copyable build disk context target)
      (copyEntries build context call (host.listing place (entries.map Prod.fst)))
      { s with active := insert place s.active } := by
    refine meets_copy_entries ⟨rfl, fun _ h => .inl h⟩ fun name t ht => ?_
    refine meets_copy_entry hplace (fun _ => ht) ?_ ?_
    · intro source target hincluded hleads hfile hsource result
      refine ⟨ht.1, fun copied hcopied => ?_⟩
      obtain rfl | hcopied := List.mem_cons.mp hcopied
      · exact .inr ⟨target, hsource, s.active, place, call.relative, name, hentered, hopens,
          ⟨hincluded, hleads⟩, hfile⟩
      · exact ht.2 copied hcopied
    · intro source target hincluded hleads htarget _ hsource
      constructor
      · intro other hother _
        obtain rfl := Except.ok.inj (hsource.symm.trans hother)
        rw [ht.1]
        exact .entry _ _ _ _ _ hentered hopens ⟨hincluded, hleads⟩ htarget
      · rintro reply t' ⟨hkept, hcopied⟩
        refine ⟨hkept.trans ht.1, fun copied hmem => ?_⟩
        obtain hold | hnew := hcopied copied hmem
        · exact ht.2 copied hold
        · exact .inr hnew
  refine hloop.conseq fun result s' hs' => ⟨?_, hs'.2⟩
  dsimp only
  rw [hs'.1, Finset.erase_insert hactive]

/-- What `copy_project` copies may be copied. -/
theorem copied_copyable (hroot : Disk.isDirectory (disk.find context.projectRoot) = true)
    {app : Location} {fuel : Nat} {result : Except String Unit} {s : CopyState}
    (hrun : exec (copyMachine disk host) (copyDirectory build context) fuel (start context app).1
      (start context app).2 = some (result, s)) {copied : Location × Location}
    (hcopied : copied ∈ s.copied) :
    ∃ target, disk.canonicalize [] copied.1 = .ok target ∧ Copyable build disk context target := by
  have hpre : (copyingContract build disk context).pre (start context app).1
      (start context app).2 := by
    intro place hplace _
    obtain rfl := Except.ok.inj ((settled (.inl hroot)).symm.trans hplace)
    exact .project
  obtain ⟨_, hall⟩ := exec_meets meets_copyable fuel _ _ _ _ hpre hrun
  obtain hold | hnew := hall copied hcopied
  · cases hold
  · exact hnew

/-! ## Runs that come there -/

/-- The entries by which copying comes from a directory to a file, with the directories they are
in. -/
inductive Route (build : Build) (disk : Disk) (context : CopyContext) (target : Location) :
    Finset Location → Location → List OsString → List (Location × OsString) → Prop where
  | file (active place relative name) : Opens disk context active place →
      Reaches build disk context place relative name target →
      Disk.isFile (disk.find target) = true →
      Route build disk context target active place relative [(place, name)]
  | entry (active place relative name next steps) : Opens disk context active place →
      Reaches build disk context place relative name next →
      Disk.isDirectory (disk.find next) = true →
      Route build disk context target (insert place active) next (relative ++ [name]) steps →
      Route build disk context target active place relative ((place, name) :: steps)

/-- There is a route to every file that may be copied. -/
theorem Copyable.route {target : Location} (h : Copyable build disk context target) :
    ∃ steps, Route build disk context target ∅ context.projectRoot [] steps := by
  obtain ⟨active, place, relative, name, hentered, hopens, hreaches, hfile⟩ := h
  have hlast : ∃ steps, Route build disk context target active place relative steps :=
    ⟨_, .file _ _ _ _ hopens hreaches hfile⟩
  clear hopens hreaches hfile
  induction hentered with
  | project => exact hlast
  | entry active place relative name next _ hopens hreaches hdirectory ih =>
      obtain ⟨steps, hsteps⟩ := hlast
      exact ih ⟨_, .entry _ _ _ _ _ _ hopens hreaches hdirectory hsteps⟩

/-- A host that refuses nothing and lists the entry first by which a route goes on. -/
def guide (steps : List (Location × OsString)) : CopyHost where
  order place names :=
    match steps.lookup place with
    | some name => if names.contains name then name :: names.erase name else names
    | none => names
  lists := by
    intro place names
    split
    · split
      · rename_i hname
        exact (List.perm_cons_erase (List.contains_iff_mem.mp hname)).symm
      · exact .refl _
    · exact .refl _
  entry _ _ := .ok ()
  refuses _ _ := none

/-- What has been copied stays so. -/
def copiedKept (copied : Location × Location) : Contract Copy CopyState String Unit where
  pre _ s := copied ∈ s.copied
  post _ _ _ s' := copied ∈ s'.copied

theorem meets_entries_keep {copied : Location × Location} {call : Copy} {place : Location}
    {listed : List (Except String OsString)} {s : CopyState}
    (hplace : disk.canonicalize [] call.source = .ok place) (hs : copied ∈ s.copied) :
    Meets (copyMachine disk host) (copiedKept copied) (fun _ s' => copied ∈ s'.copied)
      (copyEntries build context call listed) s := by
  refine meets_copy_entries hs fun name t ht => ?_
  refine meets_copy_entry hplace (fun _ => ht) ?_ ?_
  · intro source target _ _ _ _ result
    exact List.mem_cons_of_mem _ ht
  · intro source target _ _ _ _ _
    exact ⟨ht, fun reply t' hpost => hpost⟩

theorem copied_kept (copied : Location × Location) (fuel : Nat) :
    (copiedKept copied).Kept
      (exec (copyMachine disk host) (copyDirectory build context) fuel) := by
  refine exec_meets (fun call s hs => ?_) fuel
  exact meets_copy_directory (fun _ => hs) fun place entries hplace _ _ _ =>
    meets_entries_keep hplace hs

/-- What an entry has copied, the rest of the loop keeps. -/
theorem run_entries_keep {copied : Location × Location} {call : Copy} {place : Location}
    {entry : Except String OsString} {rest : List (Except String OsString)} {fuel : Nat}
    {s t s' : CopyState} {result result' : Except String Unit}
    (hplace : disk.canonicalize [] call.source = .ok place)
    (hentry : runWith (copyMachine disk host)
      (exec (copyMachine disk host) (copyDirectory build context) fuel)
      (copyEntry build context call entry) s = some (result, t))
    (ht : copied ∈ t.copied)
    (hrun : runWith (copyMachine disk host)
      (exec (copyMachine disk host) (copyDirectory build context) fuel)
      (copyEntries build context call (entry :: rest)) s = some (result', s')) :
    copied ∈ s'.copied := by
  rw [copyEntries, Program.bind_eq, run_with_bind, hentry] at hrun
  cases result with
  | error error =>
      cases hrun
      exact ht
  | ok _ => exact (meets_entries_keep hplace ht).run (copied_kept copied fuel) hrun

/-- The host lists the name that the route goes on with first. -/
theorem guide_listing {before steps : List (Location × OsString)} {place : Location}
    {name : OsString} {names : List OsString} (hplace : ∀ step ∈ before, step.1 ≠ place)
    (hname : name ∈ names) : (guide (before ++ (place, name) :: steps)).listing place names =
      .ok name :: (names.erase name).map .ok := by
  have hlookup : (before ++ (place, name) :: steps).lookup place = some name := by
    refine List.lookup_eq_some_iff.mpr ⟨before, steps, rfl, fun step hstep => ?_⟩
    simpa using (hplace step hstep).symm
  unfold CopyHost.listing guide
  dsimp only
  rw [hlookup]
  dsimp only
  rw [if_pos (List.contains_iff_mem.mpr hname)]
  rfl

/-- What an entry comes to that leads to a directory: a call for it. -/
theorem copy_entry_calls (hrefuses : ∀ c s, host.refuses c s = none)
    (self : Calling Copy CopyState String Unit) {call : Copy} {place next : Location}
    {name : OsString} {s : CopyState} (hplace : disk.canonicalize [] call.source = .ok place)
    (hreaches : Reaches build disk context place call.relative name next)
    (hdirectory : Disk.isDirectory (disk.find next) = true)
    (houtput : ¬ context.buildOutput <+: next) :
    ∃ source, disk.canonicalize [] source = .ok next ∧
      runWith (copyMachine disk host) self (copyEntry build context call (.ok name)) s =
        self { call.entry name with source := source } s := by
  have hsource := canonicalize_entry hplace name
  cases hreaches.leads with
  | entry node hnode hplain =>
      rw [Disk.follow_found hnode hplain] at hsource
      refine ⟨_, hsource, ?_⟩
      rw [copy_entry_typed (fun c => hrefuses c s) hplace hreaches.included hnode]
      cases node with
      | directory entries =>
          have hresolved : (copyMachine disk host).perform
              (.canonicalize (call.entry name).source) s = (.ok (place ++ [name]), s) :=
            perform_canonicalize (hrefuses _ s) hsource
          have hoff : ¬ context.buildOutput.isPrefixOf (place ++ [name]) = true := fun h =>
            houtput (List.isPrefixOf_iff_prefix.mp h)
          rw [fileType, copyTyped]
          simp only [ask, perform, Program.orFail, Program.bind_eq, Program.call_bind,
            Program.done_bind, runWith]
          rw [hresolved]
          simp only [Program.done_bind]
          rw [if_neg hoff, run_with_bind, run_create_dir fun c => hrefuses c s]
          exact run_with_recur _ _ _
      | file contents mode =>
          rw [hnode] at hdirectory
          cases hdirectory
      | special =>
          rw [hnode] at hdirectory
          cases hdirectory
      | symlink target => exact absurd rfl (hplain target)
  | link _ hlink hinside _ =>
      rw [Disk.follow, hlink] at hsource
      refine ⟨next, settled (.inl hdirectory), ?_⟩
      rw [copy_entry_typed (fun c => hrefuses c s) hplace hreaches.included hlink, fileType,
        copyTyped, copy_project_symlink_allowed (fun c => hrefuses c s) hsource hinside houtput,
        if_pos hdirectory]

/-- What an entry comes to that leads to a file. -/
theorem copy_entry_copies (hrefuses : ∀ c s, host.refuses c s = none)
    (self : Calling Copy CopyState String Unit) {call : Copy} {place target : Location}
    {name : OsString} {s : CopyState} (hplace : disk.canonicalize [] call.source = .ok place)
    (hreaches : Reaches build disk context place call.relative name target)
    (hfile : Disk.isFile (disk.find target) = true) :
    ∃ source, disk.canonicalize [] source = .ok target ∧
      runWith (copyMachine disk host) self (copyEntry build context call (.ok name)) s =
        some (.ok (), { s with copied := (source, call.destination ++ [name]) :: s.copied }) := by
  have hsource := canonicalize_entry hplace name
  cases hreaches.leads with
  | entry node hnode hplain =>
      rw [Disk.follow_found hnode hplain] at hsource
      refine ⟨_, hsource, ?_⟩
      rw [copy_entry_typed (fun c => hrefuses c s) hplace hreaches.included hnode]
      cases node with
      | file contents mode =>
          rw [fileType, copyTyped]
          simp only [ask, perform, Program.orFail, Program.call_bind, Program.done_bind, runWith]
          rw [perform_copy fun c => hrefuses c s]
          rfl
      | directory entries =>
          rw [hnode] at hfile
          cases hfile
      | special =>
          rw [hnode] at hfile
          cases hfile
      | symlink target => exact absurd rfl (hplain target)
  | link _ hlink hinside houtput =>
      rw [Disk.follow, hlink] at hsource
      refine ⟨target, settled (.inr hfile), ?_⟩
      rw [copy_entry_typed (fun c => hrefuses c s) hplace hreaches.included hlink, fileType,
        copyTyped, copy_project_symlink_allowed (fun c => hrefuses c s) hsource hinside houtput,
        if_neg (Disk.not_file_and_directory hfile), if_pos hfile]
      rfl

theorem copy_listed_entries {self : Calling Copy CopyState String Unit} {call : Copy}
    {place : Location} {entries : List (OsString × Disk)} {s : CopyState}
    (hrefuses : host.refuses (.readDir call.source) s = none)
    (hplace : disk.canonicalize [] call.source = .ok place)
    (hentries : disk.find place = some (.directory entries)) :
    runWith (copyMachine disk host) self (copyListed build context call) s =
      runWith (copyMachine disk host) self
        (copyEntries build context call (host.listing place (entries.map Prod.fst))) s := by
  have hlisting : readDir disk host call.source =
      .ok (host.listing place (entries.map Prod.fst)) := by
    unfold readDir resolve
    refine except_bind_ok.mpr ⟨place, by rw [hplace]; rfl, ?_⟩
    rw [hentries]
  have hread : (copyMachine disk host).perform (.readDir call.source) s =
      (.ok (host.listing place (entries.map Prod.fst)), s) := by
    show (host.answer _ s (readDir disk host call.source), s) = _
    rw [CopyHost.answer, hrefuses, hlisting]
  simp only [copyListed, ask, perform, Program.orFail, Program.bind_eq, Program.call_bind,
    Program.done_bind, runWith]
  rw [hread]
  rfl

/-- A run with the host that guides it goes on with the entry of the route. -/
theorem guided_entries {before steps : List (Location × OsString)} {name : OsString}
    {target place : Location} {call : Copy} {s s' : CopyState} {result : Except String Unit}
    {fuel : Nat} (hopens : Opens disk context s.active place)
    (hreaches : Reaches build disk context place call.relative name target)
    (hbefore : ∀ step ∈ before, step.1 ∈ s.active)
    (hplace : disk.canonicalize [] call.source = .ok place)
    (hrun : exec (copyMachine disk (guide (before ++ (place, name) :: steps)))
      (copyDirectory build context) fuel call s = some (result, s')) :
    ∃ less rest result' t, s'.copied = t.copied ∧
      runWith (copyMachine disk (guide (before ++ (place, name) :: steps)))
        (exec (copyMachine disk (guide (before ++ (place, name) :: steps)))
          (copyDirectory build context) less)
        (copyEntries build context call (.ok name :: rest))
        { s with active := insert place s.active } = some (result', t) := by
  cases fuel with
  | zero => cases hrun
  | succ fuel =>
      rw [copy_directory_visits rfl
        (visits_some.mpr ⟨hplace, hopens.outside, hopens.fresh⟩)] at hrun
      obtain ⟨⟨result', t⟩, hlisted, heq⟩ := Option.map_eq_some_iff.mp hrun
      cases heq
      have hnode : ∃ node, disk.find (place ++ [name]) = some node := by
        cases hreaches.leads with
        | entry node hnode _ => exact ⟨node, hnode⟩
        | link _ hlink _ _ => exact ⟨_, hlink⟩
      obtain ⟨node, hnode⟩ := hnode
      have hdirectory := hopens.directory
      rw [Disk.find_append] at hnode
      obtain ⟨directory, hfound, hchild⟩ := Option.bind_eq_some_iff.mp hnode
      obtain ⟨entries, rfl⟩ := Disk.find_below (hchild ▸ Option.some_ne_none _)
      have hname : name ∈ entries.map Prod.fst := by
        by_contra hunlisted
        rw [Disk.find_unlisted hunlisted] at hchild
        cases hchild
      rw [copy_listed_entries rfl hplace hfound, guide_listing ?_ hname] at hlisted
      · exact ⟨fuel, _, result', t, rfl, hlisted⟩
      · intro step hstep heq
        exact hopens.fresh (heq ▸ hbefore step hstep)

/-- A run with the host that guides it copies the file at the end of the route. -/
theorem route_copied {target : Location} {active : Finset Location} {place : Location}
    {relative : List OsString} {steps : List (Location × OsString)}
    (hroute : Route build disk context target active place relative steps)
    {before : List (Location × OsString)} (hbefore : ∀ step ∈ before, step.1 ∈ active)
    {call : Copy} {s s' : CopyState} {result : Except String Unit} {fuel : Nat}
    (hplace : disk.canonicalize [] call.source = .ok place)
    (hrelative : call.relative = relative) (hactive : s.active = active)
    (hrun : exec (copyMachine disk (guide (before ++ steps))) (copyDirectory build context) fuel
      call s = some (result, s')) :
    ∃ copied ∈ s'.copied, disk.canonicalize [] copied.1 = .ok target := by
  induction hroute generalizing before call s s' result fuel with
  | file active place relative name hopens hreaches hfile =>
      subst hrelative hactive
      obtain ⟨less, rest, result', t, hsame, hentries⟩ :=
        guided_entries hopens hreaches hbefore hplace hrun
      have hquiet : ∀ c u, (guide (before ++ [(place, name)])).refuses c u = none :=
        fun _ _ => rfl
      obtain ⟨source, hsource, hentry⟩ := copy_entry_copies hquiet _ hplace hreaches hfile
      refine ⟨(source, call.destination ++ [name]), ?_, hsource⟩
      rw [hsame]
      exact run_entries_keep hplace hentry List.mem_cons_self hentries
  | entry active place relative name next steps hopens hreaches hdirectory hroute ih =>
      subst hrelative hactive
      obtain ⟨less, rest, result', t, hsame, hentries⟩ :=
        guided_entries hopens hreaches hbefore hplace hrun
      have houtput : ¬ context.buildOutput <+: next := by
        cases hroute with
        | file _ _ _ _ hopens => exact hopens.outside
        | entry _ _ _ _ _ _ hopens => exact hopens.outside
      have hquiet : ∀ c u, (guide (before ++ (place, name) :: steps)).refuses c u = none :=
        fun _ _ => rfl
      obtain ⟨source, hsource, hentry⟩ :=
        copy_entry_calls hquiet _ hplace hreaches hdirectory houtput
      cases hnested : exec (copyMachine disk (guide (before ++ (place, name) :: steps)))
          (copyDirectory build context) less { call.entry name with source := source }
          { s with active := insert place s.active } with
      | none =>
          rw [copyEntries, Program.bind_eq, run_with_bind, hentry, hnested] at hentries
          cases hentries
      | some outcome =>
          obtain ⟨reply, u⟩ := outcome
          have hlater : ∀ step ∈ before ++ [(place, name)], step.1 ∈ insert place s.active := by
            intro step hstep
            obtain hstep | hstep := List.mem_append.mp hstep
            · exact Finset.mem_insert_of_mem (hbefore step hstep)
            · rw [List.mem_singleton.mp hstep]
              exact Finset.mem_insert_self _ _
          rw [hnested] at hentry
          obtain ⟨copied, hcopied, htarget⟩ : ∃ copied ∈ u.copied,
              disk.canonicalize [] copied.1 = .ok target := by
            rw [List.append_cons] at hnested
            exact ih hlater hsource rfl rfl hnested
          refine ⟨copied, ?_, htarget⟩
          rw [hsame]
          exact run_entries_keep hplace hentry hcopied hentries

/-- Every file that may be copied is copied by a run. -/
theorem copyable_copied (hroot : Disk.isDirectory (disk.find context.projectRoot) = true)
    (app : Location) {target : Location} (h : Copyable build disk context target) :
    ∃ host fuel result s, exec (copyMachine disk host) (copyDirectory build context) fuel
        (start context app).1 (start context app).2 = some (result, s) ∧
      ∃ copied ∈ s.copied, disk.canonicalize [] copied.1 = .ok target := by
  obtain ⟨steps, hroute⟩ := h.route
  obtain ⟨result, s, _, hrun⟩ := copy_directory_outcome (start context app).1
    (start context app).2
  have hrun := hrun _ (Nat.lt_succ_self _)
  refine ⟨guide steps, _, result, s, hrun, ?_⟩
  have hnone : ∀ step ∈ ([] : List (Location × OsString)), step.1 ∈ (∅ : Finset Location) := nofun
  exact route_copied hroute hnone (settled (.inl hroot)) rfl rfl hrun

/-! ## What links smuggle -/

/-- Copying comes to this link and follows it. -/
structure Followed (build : Build) (disk : Disk) (context : CopyContext)
    (active : Finset Location) (place : Location) (relative : List OsString) (name : OsString)
    (target : Location) : Prop where
  entered : Entered build disk context active place relative
  opens : Opens disk context active place
  included : excludedPath build (relative ++ [name]) context.excludes = false
  link : disk.find (place ++ [name]) = some (.symlink (.ok target))
  inside : context.projectRoot <+: target ∨
    (relative ++ [name]).head? = some (osString "vendor")
  outside : ¬ context.buildOutput <+: target

/-- Copying comes by directories from a place that is copied as `relative` to what is at `names`
below it. -/
structure Descends (build : Build) (disk : Disk) (context : CopyContext) (active : Finset Location)
    (place : Location) (relative names : List OsString) : Prop where
  opens : ∀ front, front <+: names → front ≠ names →
    place ++ front ∉ active ∧ ¬ context.buildOutput <+: place ++ front
  included : ∀ front, front <+: names → front ≠ [] →
    excludedPath build (relative ++ front) context.excludes = false

/-- No link that copying follows leads to a file that is excluded under its own name, or to a
directory from which copying comes to such a file. -/
def NothingSmuggled (build : Build) (disk : Disk) (context : CopyContext) : Prop :=
  ∀ active place relative name target names own,
    Followed build disk context active place relative name target →
    Descends build disk context (insert place active) target (relative ++ [name]) names →
    Disk.isFile (disk.find (target ++ names)) = true →
    target ++ names = context.projectRoot ++ own →
    excludedPath build own context.excludes = false

/-- Nothing is copied from inside the project that is excluded under its own name. -/
def Confidential (build : Build) (disk : Disk) (context : CopyContext) : Prop :=
  ∀ host app fuel result s,
    exec (copyMachine disk host) (copyDirectory build context) fuel (start context app).1
      (start context app).2 = some (result, s) →
    ∀ copied ∈ s.copied, ∀ own,
      disk.canonicalize [] copied.1 = .ok (context.projectRoot ++ own) →
      excludedPath build own context.excludes = false

/-- The first of the directories on the way, and the rest of it. -/
theorem Descends.tail {active : Finset Location} {place : Location}
    {relative rest : List OsString} {name : OsString}
    (h : Descends build disk context active place relative (name :: rest)) :
    Descends build disk context (insert place active) (place ++ [name]) (relative ++ [name])
      rest := by
  constructor
  · intro front hfront hne
    have hlonger : name :: front <+: name :: rest := List.cons_prefix_cons.mpr ⟨rfl, hfront⟩
    obtain ⟨hfresh, houtput⟩ := h.opens (name :: front) hlonger fun heq =>
      hne (List.cons.inj heq).2
    rw [← List.append_cons]
    refine ⟨fun hmem => ?_, houtput⟩
    obtain heq | hmem := Finset.mem_insert.mp hmem
    · have hlength := congrArg List.length heq
      simp at hlength
    · exact hfresh hmem
  · intro front hfront _
    rw [← List.append_cons]
    exact h.included (name :: front) (List.cons_prefix_cons.mpr ⟨rfl, hfront⟩) (by simp)

/-- Only a directory has anything below it. -/
theorem directory_above {place rest : Location} {name : OsString}
    (h : Disk.isFile (disk.find (place ++ name :: rest)) = true) :
    Disk.isDirectory (disk.find place) = true := by
  rw [Disk.find_append] at h
  cases hnode : disk.find place with
  | none =>
      rw [hnode] at h
      cases h
  | some node =>
      rw [hnode, Option.bind_some] at h
      obtain ⟨entries, rfl⟩ : ∃ entries, node = .directory entries := by
        have hsome : node.find (name :: rest) ≠ none := by
          intro hnone
          rw [hnone] at h
          cases h
        exact Disk.find_below hsome
      rfl

/-- A file to which copying comes from a directory that it enters may be copied. -/
theorem Descends.copyable {active : Finset Location} {place : Location}
    {relative names : List OsString}
    (h : Descends build disk context active place relative names) (hne : names ≠ [])
    (hentered : Entered build disk context active place relative)
    (hfile : Disk.isFile (disk.find (place ++ names)) = true) :
    Copyable build disk context (place ++ names) := by
  induction names generalizing active place relative with
  | nil => exact absurd rfl hne
  | cons name rest ih =>
      obtain ⟨hfresh, houtput⟩ := h.opens [] List.nil_prefix (by simp)
      rw [List.append_nil] at hfresh houtput
      have hincluded := h.included [name] (List.cons_prefix_cons.mpr ⟨rfl, List.nil_prefix⟩)
        (by simp)
      have hopens : Opens disk context active place := ⟨directory_above hfile, houtput, hfresh⟩
      have hleads : ∀ node, disk.find (place ++ [name]) = some node →
          (∀ target, node ≠ .symlink target) →
          Reaches build disk context place relative name (place ++ [name]) :=
        fun node hnode hplain => ⟨hincluded, .entry node hnode hplain⟩
      cases rest with
      | nil =>
          refine ⟨active, place, relative, name, hentered, hopens, ?_, hfile⟩
          cases hnode : disk.find (place ++ [name]) with
          | none =>
              rw [hnode] at hfile
              cases hfile
          | some node =>
              refine hleads node hnode fun target heq => ?_
              rw [hnode, heq] at hfile
              cases hfile
      | cons second rest =>
          rw [List.append_cons] at hfile ⊢
          have hdirectory := directory_above hfile
          refine ih h.tail (by simp) (.entry _ _ _ _ _ hentered hopens ?_ hdirectory) hfile
          cases hnode : disk.find (place ++ [name]) with
          | none =>
              rw [hnode] at hdirectory
              cases hdirectory
          | some node =>
              refine hleads node hnode fun target heq => ?_
              rw [hnode, heq] at hdirectory
              cases hdirectory

/-- What a link that is followed leads to may be copied. -/
theorem Followed.copyable {active : Finset Location} {place target : Location}
    {relative names : List OsString} {name : OsString}
    (h : Followed build disk context active place relative name target)
    (hdescends : Descends build disk context (insert place active) target (relative ++ [name])
      names)
    (hfile : Disk.isFile (disk.find (target ++ names)) = true) :
    Copyable build disk context (target ++ names) := by
  have hreaches : Reaches build disk context place relative name target :=
    ⟨h.included, .link target h.link h.inside h.outside⟩
  cases names with
  | nil =>
      rw [List.append_nil] at hfile ⊢
      exact ⟨active, place, relative, name, h.entered, h.opens, hreaches, hfile⟩
  | cons first rest =>
      have hentered := Entered.entry _ _ _ _ _ h.entered h.opens hreaches (directory_above hfile)
      exact hdescends.copyable (by simp) hentered hfile

/-- How copying has come to a place: by directories only, or by directories from where the last
link leads. -/
inductive Traced (build : Build) (disk : Disk) (context : CopyContext) (active : Finset Location)
    (place : Location) (relative : List OsString) : Prop where
  | plain : place = context.projectRoot ++ relative →
      (relative ≠ [] → excludedPath build relative context.excludes = false) →
      Traced build disk context active place relative
  | linked (enclosing directory front name target names) :
      Followed build disk context enclosing directory front name target →
      Descends build disk context (insert directory enclosing) target (front ++ [name]) names →
      insert directory enclosing ⊆ active → place = target ++ names →
      relative = front ++ [name] ++ names → Traced build disk context active place relative

theorem Traced.entry {active : Finset Location} {place target : Location}
    {relative : List OsString} {name : OsString}
    (h : Traced build disk context active place relative)
    (hentered : Entered build disk context active place relative)
    (hopens : Opens disk context active place)
    (hreaches : Reaches build disk context place relative name target) :
    Traced build disk context (insert place active) target (relative ++ [name]) := by
  cases hreaches.leads with
  | link _ hlink hinside houtput =>
      refine .linked active place relative name target [] ⟨hentered, hopens, hreaches.included,
        hlink, hinside, houtput⟩ ⟨?_, ?_⟩ subset_rfl (List.append_nil _).symm
          (List.append_nil _).symm
      · intro front hfront hne
        exact absurd (List.prefix_nil.mp hfront) hne
      · intro front hfront hne
        exact absurd (List.prefix_nil.mp hfront) hne
  | entry node _ _ =>
      cases h with
      | plain hplace _ =>
          refine .plain ?_ fun _ => hreaches.included
          rw [hplace, List.append_assoc]
      | linked enclosing directory front first target names hfollowed hdescends hsubset hplace
          hrelative =>
          refine .linked enclosing directory front first target (names ++ [name]) hfollowed
            ⟨?_, ?_⟩ (hsubset.trans (Finset.subset_insert _ _)) ?_ ?_
          · intro other hother hne
            have hother := (List.prefix_concat_iff.mp hother).resolve_left hne
            by_cases hlast : other = names
            · rw [hlast, ← hplace]
              exact ⟨fun hmem => hopens.fresh (hsubset hmem), hopens.outside⟩
            · exact hdescends.opens other hother hlast
          · intro other hother hne
            obtain rfl | hother := List.prefix_concat_iff.mp hother
            · rw [← List.append_assoc, ← hrelative]
              exact hreaches.included
            · exact hdescends.included other hother hne
          · rw [hplace, List.append_assoc]
          · rw [hrelative, List.append_assoc _ names]

theorem Entered.traced {active : Finset Location} {place : Location} {relative : List OsString}
    (h : Entered build disk context active place relative) :
    Traced build disk context active place relative := by
  induction h with
  | project => exact .plain (List.append_nil _).symm fun hne => absurd rfl hne
  | entry active place relative name target hentered hopens hreaches _ ih =>
      exact ih.entry hentered hopens hreaches

/-- Nothing but what links smuggle is copied from where it is excluded. -/
theorem Copyable.included {own : List OsString} (hnothing : NothingSmuggled build disk context)
    (h : Copyable build disk context (context.projectRoot ++ own)) :
    excludedPath build own context.excludes = false := by
  obtain ⟨active, place, relative, name, hentered, hopens, hreaches, hfile⟩ := h
  cases hentered.traced.entry hentered hopens hreaches with
  | plain hplace hincluded =>
      rw [List.append_cancel_left hplace]
      exact hincluded (by simp)
  | linked enclosing directory front first target names hfollowed hdescends _ hplace _ =>
      rw [hplace] at hfile
      exact hnothing _ _ _ _ _ _ own hfollowed hdescends hfile hplace.symm

end Runs

/-- Nothing is copied that is excluded under its own name exactly if no link smuggles. -/
theorem confidential_iff {build : Build} {disk : Disk} {context : CopyContext}
    (hroot : Disk.isDirectory (disk.find context.projectRoot) = true) :
    Confidential build disk context ↔ NothingSmuggled build disk context := by
  constructor
  · intro hconfidential active place relative name target names own hfollowed hdescends hfile hown
    have hcopyable := hfollowed.copyable hdescends hfile
    obtain ⟨host, fuel, result, s, hrun, copied, hcopied, htarget⟩ :=
      copyable_copied hroot [] hcopyable
    rw [hown] at htarget
    exact hconfidential host [] fuel result s hrun copied hcopied own htarget
  · intro hnothing host app fuel result s hrun copied hcopied own htarget
    obtain ⟨target, hsource, hcopyable⟩ := copied_copyable hroot hrun hcopied
    obtain rfl := Except.ok.inj (hsource.symm.trans htarget)
    exact hcopyable.included hnothing

/-! ## A link to the environment file -/

/-- A project with secrets in `.env`, and with this beside it. -/
def secretsDisk (settings : Disk) : Disk :=
  .directory [(osString "app", .directory [(osString "settings", settings),
    (osString ".env", .file (osString "SECRET=1") 0o600)])]

def secretsContext : CopyContext where
  projectRoot := [osString "app"]
  buildOutput := [osString "out"]
  excludes := []

/-- With a plain file the secrets stay where they are. -/
theorem secrets_kept :
    Confidential Materialize.galleryPackaging.toBuild
      (secretsDisk (.file (osString "theme=dark") 0o644)) secretsContext := by
  refine (confidential_iff (by decide +kernel)).mpr ?_
  intro active place relative name target names own hfollowed
  have hlinks : (secretsDisk (.file (osString "theme=dark") 0o644)).NoLinks := by
    refine Disk.no_links_directory fun item hitem => ?_
    obtain rfl := List.mem_singleton.mp hitem
    refine Disk.no_links_directory fun item hitem => ?_
    obtain rfl | hitem := List.mem_cons.mp hitem
    · exact Disk.no_links_file
    · obtain rfl := List.mem_singleton.mp hitem
      exact Disk.no_links_file
  exact absurd hfollowed.link (hlinks _ _)

/-- With a link to `.env` they are copied under another name. -/
theorem secrets_smuggled :
    ¬ Confidential Materialize.galleryPackaging.toBuild
      (secretsDisk (.symlink (.ok [osString "app", osString ".env"]))) secretsContext := by
  intro h
  have hrun : exec (copyMachine (secretsDisk (.symlink (.ok [osString "app", osString ".env"])))
      (guide [])) (copyDirectory Materialize.galleryPackaging.toBuild secretsContext) 2
      (start secretsContext [osString "out"]).1 (start secretsContext [osString "out"]).2 =
      some (.ok (), ⟨∅, [([osString "app", osString ".env"],
        [osString "out", osString "settings"])]⟩) := by
    rfl
  have hincluded := h _ _ _ _ _ hrun _ List.mem_cons_self [osString ".env"] (by decide +kernel)
  revert hincluded
  decide +kernel

end PamDesktop.Packager.Copying
