import PamDesktop.Foundations.Transition
import PamDesktop.Native.Restart

/-!
# File watches

A watch is authorized when it is started, by the services that the request was given; after that
its thread looks at the path until the watch is stopped. A reload replaces the services and leaves
the watches alone. `Event` is what happens around the registry, one atomic step after the other:
`watches_authorized_iff` says in which runs no watch is ever left without authority.
-/

namespace PamDesktop.Native

open Foundations Protocol

/-! ## The disk -/

/-- Every link leads to a place that no other link leads away from. -/
def Linked (disk : Disk) : Prop :=
  ∀ place target, disk.find place = some (.symlink (.ok target)) →
    disk.canonicalize [] target = .ok target

/-- The files, with the times at which they were modified. -/
structure World where
  disk : Disk
  modified : Location → Nat
  linked : Linked disk

/-- Where one more name leads from a place that is reached, that place leads to itself. -/
theorem follow_settled {disk : Disk} (hlinked : Linked disk) {place next : Location}
    {name : OsString} (hplace : disk.canonicalize [] place = .ok place)
    (h : disk.follow place name = .ok next) : disk.canonicalize [] next = .ok next := by
  have hfollow := h
  unfold Disk.follow at h
  split at h
  · rename_i target hlink
    rw [h] at hlink
    exact hlinked _ _ hlink
  · cases h
    rw [Disk.canonicalize_append, hplace]
    dsimp only
    rw [Disk.canonicalize_cons hfollow, Disk.canonicalize]
  · cases h

/-- Where a path leads, that place leads to itself. -/
theorem canonicalize_settled {disk : Disk} (hlinked : Linked disk) {place last : Location}
    {names : List OsString} (hplace : disk.canonicalize [] place = .ok place)
    (h : disk.canonicalize place names = .ok last) : disk.canonicalize [] last = .ok last := by
  induction names generalizing place with
  | nil =>
      cases h
      exact hplace
  | cons name rest ih =>
      obtain ⟨next, hnext, hrest⟩ := Disk.canonicalize_cons_ok h
      exact ih (follow_settled hlinked hplace hnext) hrest

/-! ## Snapshots -/

/-- What a snapshot knows of the files under a path: the relative path, the length and the time. -/
abbrev Snapshot := List (Location × Nat × Nat)

/-- A file in the snapshot. -/
def Snapshot.insert (output : Snapshot) (relative : Location) (metadata : Nat × Nat) : Snapshot :=
  (relative, metadata) :: output.filter fun entry => entry.1 ≠ relative

/-- `MAX_ENTRIES`. -/
def maxEntries : Nat := 10000

mutual

/-- `collect`, from a place on the disk. -/
def collect (modified : Location → Nat) (place relative : Location) (output : Snapshot) :
    Disk → Snapshot
  | .file contents _ =>
      if maxEntries ≤ output.length then output
      else output.insert relative (contents.length, modified place)
  | .directory entries =>
      if maxEntries ≤ output.length then output
      else collectEntries modified place relative output entries
  | .symlink _ => output
  | .special => output
termination_by structural node => node

def collectEntries (modified : Location → Nat) (place relative : Location) (output : Snapshot) :
    List (OsString × Disk) → Snapshot
  | [] => output
  | item :: rest =>
      let output := collectEntry modified place relative output item
      if maxEntries ≤ output.length then output
      else collectEntries modified place relative output rest
termination_by structural entries => entries

def collectEntry (modified : Location → Nat) (place relative : Location) (output : Snapshot) :
    OsString × Disk → Snapshot
  | (name, node) => collect modified (place ++ [name]) (relative ++ [name]) output node
termination_by structural item => item

end

/-- What is at a path, a link at its end not followed: the place and the node. -/
def locate (disk : Disk) (path : Location) : Option (Location × Disk) :=
  match path.getLast? with
  | none => some ([], disk)
  | some name =>
      match disk.canonicalize [] path.dropLast with
      | .error _ => none
      | .ok place => (disk.find (place ++ [name])).map fun node => (place ++ [name], node)

/-- `snapshot`. -/
def snapshot (world : World) (path : Location) : Snapshot :=
  match locate world.disk path with
  | none => []
  | some (place, node) => collect world.modified place [] [] node

/-! ## Requests -/

/-- The named roots of the services. -/
abbrev Roots := List (String × AuthorizedRoot)

/-- Whether a link at the end of this path is followed: the path ends in a slash or in a dot. -/
def endsInside (path : String) : Bool :=
  match ((osString path).splitOn 47).getLast? with
  | some name => name = [] ∨ name = [46]
  | none => false

/-- `NativeServices::watch_path`. -/
def watchPath (files : Files) (roots : Roots) (target : FileTarget) : Except NativeError Location :=
  match target.root with
  | none => .error (.invalid "File watches require a named filesystem root.")
  | some name =>
      if target.grantId.isSome then
        .error (.invalid "File watches cannot combine root and grantId.")
      else do
        validateRelativePath target.path
        match roots.lookup name with
        | none => .error (.permission "The filesystem root is not authorized.")
        | some root =>
            if !root.access.canRead then
              .error (.permission "File watches require read access.")
            else do
              let candidate := root.path ++ components (osString target.path)
              let canonical ← ioResult "Cannot resolve watched path" (files.canonicalize candidate)
              if !root.path.isPrefixOf canonical then
                .error (.permission "The watched path escapes its authorized root.")
              else
                let inspected := if endsInside target.path then canonical else candidate
                match files.symlinkMetadata inspected with
                | .error error => .error (.io "Cannot inspect watched path" error)
                | .ok .symlink => .error (.permission "Symbolic links cannot be watched.")
                | .ok _ => .ok canonical

inductive FileWatchOperation where
  | start | stop
deriving DecidableEq

/-- `FileWatchRequest`. -/
structure FileWatchRequest where
  operation : FileWatchOperation
  windowId : String
  watchId : String
  target : Option FileTarget

/-- Where the thread of a watch is: before its first snapshot, at the head of its loop, or asleep
in it. -/
inductive WatchThread where
  | starting
  | testing (prior : Snapshot)
  | sleeping (prior : Snapshot)
deriving DecidableEq

/-- A `WatchHandle`, with what its thread has taken along. -/
structure WatchHandle where
  path : Location
  windowId : String
  watchId : String
  stop : Bool
  thread : WatchThread
deriving DecidableEq

/-- The watches by their keys. A watch that is being stopped is here until its thread has ended. -/
abbrev Watches := List (String × WatchHandle)

/-- The key of a watch. -/
def FileWatchRequest.key (request : FileWatchRequest) : String :=
  request.windowId ++ ":" ++ request.watchId

/-- `WatchHandle::start`, where the system may refuse the thread. -/
def startWatch (spawn : Except String Unit) (path : Location) (request : FileWatchRequest) :
    Except NativeError WatchHandle :=
  match spawn with
  | .error error => .error (.native "Cannot start file watcher" error)
  | .ok () => .ok ⟨path, request.windowId, request.watchId, false, .starting⟩

/-- The drop of a `WatchHandle` begins. -/
def dropWatch (key : String) (watches : Watches) : Watches :=
  watches.map fun watch => if watch.1 = key then (watch.1, { watch.2 with stop := true }) else watch

/-- `FileWatchManager::dispatch`, up to the end of the thread that it stops. -/
def dispatch (files : Files) (roots : Roots) (spawn : Except String Unit)
    (request : FileWatchRequest) (watches : Watches) : Except NativeError Watches :=
  match validateIdentifier request.watchId "file watch" with
  | .error error => .error (.invalid error)
  | .ok () =>
      match request.operation with
      | .start =>
          match request.target with
          | none => .error (.invalid "Starting a file watch requires a target.")
          | some target => do
              let path ← watchPath files roots target
              if (watches.lookup request.key).isSome then
                .error (.invalid "The file watch is already active.")
              else do
                let handle ← startWatch spawn path request
                .ok (watches ++ [(request.key, handle)])
      | .stop =>
          if (watches.lookup request.key).isSome then .ok (dropWatch request.key watches)
          else .error (.invalid "The file watch is not active.")

/-! ## The host -/

/-- An event `pam.fs.changed`, with what the roots allow when it is published. -/
structure FsChanged where
  windowId : String
  watchId : String
  path : Location
  roots : Roots
  world : World

/-- The registry of watches among the files and the services, with the requests that were given
services and have no answer yet. -/
structure Watching where
  world : World
  roots : Roots
  requests : List (FileWatchRequest × Roots)
  watches : Watches
  published : List FsChanged

inductive WatchEvent where
  /-- A request asks for the services. -/
  | request (request : FileWatchRequest)
  /-- A request that has services is dispatched. -/
  | dispatch (index : Nat) (spawn : Except String Unit)
  /-- The thread of a watch goes on. -/
  | run (index : Nat)
  /-- The files change. -/
  | change (world : World)
  /-- `finish_runtime_reload`, with the roots of the new services if there are any. -/
  | reload (result : Except String Roots)

/-- What the thread of a watch does next, and whether it publishes; `none` where it ends. -/
def WatchHandle.wake (world : World) (watch : WatchHandle) : Option (WatchHandle × Bool) :=
  match watch.thread with
  | .starting => some ({ watch with thread := .testing (snapshot world watch.path) }, false)
  | .testing prior =>
      if watch.stop then none else some ({ watch with thread := .sleeping prior }, false)
  | .sleeping prior =>
      let current := snapshot world watch.path
      if current.isPerm prior then some ({ watch with thread := .testing prior }, false)
      else some ({ watch with thread := .testing current }, true)

/-- The thread of a watch goes on. -/
def Watching.run (s : Watching) (index : Nat) (key : String) (watch : WatchHandle) : Watching :=
  match watch.wake s.world with
  | none => { s with watches := s.watches.eraseIdx index }
  | some (after, publishes) =>
      { s with
        watches := s.watches.set index (key, after)
        published :=
          if publishes then
            s.published ++ [⟨watch.windowId, watch.watchId, watch.path, s.roots, s.world⟩]
          else s.published }

/-- The answer to a request. -/
def Watching.answer (s : Watching) (index : Nat) (result : Except NativeError Watches) :
    Watching :=
  match result with
  | .error _ => { s with requests := s.requests.eraseIdx index }
  | .ok watches => { s with requests := s.requests.eraseIdx index, watches }

/-- What an event does in the host. -/
def fileWatching : System Watching WatchEvent where
  next s
    | .request request => some { s with requests := s.requests ++ [(request, s.roots)] }
    | .dispatch index spawn =>
        -- The registry stays locked until a thread that is stopped has ended.
        if s.watches.any fun watch => watch.2.stop then none
        else
          match s.requests[index]? with
          | none => none
          | some (request, roots) =>
              some (s.answer index
                (dispatch (filesOf s.world.disk) roots spawn request s.watches))
    | .run index =>
        match s.watches[index]? with
        | none => none
        | some (key, watch) => some (s.run index key watch)
    | .change world => some { s with world }
    | .reload (.ok roots) => some { s with roots }
    | .reload (.error _) => some s

/-- The host, before any watch is started. -/
def noWatches (world : World) (roots : Roots) : Watching := ⟨world, roots, [], [], []⟩

/-! ## Authority -/

/-- A root allows to read a path that is in it, and that no link leads out of it. -/
def AuthorizedRoot.allows (root : AuthorizedRoot) (disk : Disk) (path : Location) : Bool :=
  root.access.canRead && root.path.isPrefixOf path &&
    match disk.canonicalize [] path with
    | .error _ => true
    | .ok place => root.path.isPrefixOf place

/-- What the services allow to be read. -/
def readable (world : World) (roots : Roots) (path : Location) : Bool :=
  roots.any fun root => root.2.allows world.disk path

/-- No watch has outlived its authority, and no event was published without it. -/
structure Authorized (s : Watching) : Prop where
  watches : ∀ watch ∈ s.watches, readable s.world s.roots watch.2.path = true
  published : ∀ event ∈ s.published, readable event.world event.roots event.path = true

/-- The path of the watch that a request starts. -/
structure Starts (s : Watching) (roots : Roots) (request : FileWatchRequest) (path : Location) :
    Prop where
  identifier : validateIdentifier request.watchId "file watch" = .ok ()
  operation : request.operation = .start
  target : ∃ target, request.target = some target ∧
    watchPath (filesOf s.world.disk) roots target = .ok path
  absent : (s.watches.lookup request.key).isSome = false

/-- A reload leaves every watched path in a root that may be read, no file change leads a watched
path out of its roots, and a watch that a replaced service has still granted is granted by the
present one. -/
def Admitted (s : Watching) : WatchEvent → Prop
  | .request _ => True
  | .dispatch index spawn =>
      ∀ request roots path, s.requests[index]? = some (request, roots) → roots ≠ s.roots →
        spawn = .ok () → Starts s roots request path → readable s.world s.roots path = true
  | .run _ => True
  | .change world => ∀ watch ∈ s.watches, readable world s.roots watch.2.path = true
  | .reload (.ok roots) => ∀ watch ∈ s.watches, readable s.world roots watch.2.path = true
  | .reload (.error _) => True

theorem canonicalize_of {disk : Disk} {path place : Location}
    (h : (filesOf disk).canonicalize path = .ok place) : disk.canonicalize [] path = .ok place := by
  unfold filesOf at h
  dsimp only at h
  split at h
  · cases h
  · rename_i found hfound
    cases h
    exact hfound

/-- What a root grants to be watched, it allows to be read. -/
theorem watch_path_readable {world : World} {roots : Roots} {target : FileTarget} {path : Location}
    (h : watchPath (filesOf world.disk) roots target = .ok path) :
    readable world roots path = true := by
  unfold watchPath at h
  split at h
  · cases h
  · rename_i name hname
    split at h
    · cases h
    · obtain ⟨⟨⟩, -, h⟩ := except_bind_ok.mp h
      split at h
      · cases h
      · rename_i root hroot
        split at h
        · cases h
        · rename_i hread
          obtain ⟨canonical, hcanonical, h⟩ := except_bind_ok.mp h
          split at h
          · cases h
          · rename_i hprefix
            have hplace : path = canonical := by
              dsimp only at h
              split at h
              · cases h
              · cases h
              · cases h
                rfl
            have hsettled : world.disk.canonicalize [] canonical = .ok canonical :=
              canonicalize_settled world.linked rfl (canonicalize_of (io_result_ok.mp hcanonical))
            rw [Bool.not_eq_true, Bool.not_eq_false'] at hread hprefix
            have hallows : root.allows world.disk path = true := by
              unfold AuthorizedRoot.allows
              rw [hplace, hsettled, hread, hprefix]
              exact hprefix
            unfold readable
            rw [List.any_eq_true]
            exact ⟨(name, root), mem_of_lookup hroot, hallows⟩

/-! ## What a step does to the watches -/

/-- The watch that a request starts. -/
def FileWatchRequest.handle (request : FileWatchRequest) (path : Location) : WatchHandle :=
  ⟨path, request.windowId, request.watchId, false, .starting⟩

/-- A request starts a watch, stops one, or is refused. -/
inductive Dispatched (s : Watching) (roots : Roots) (spawn : Except String Unit)
    (request : FileWatchRequest) : Except NativeError Watches → Prop
  | started {path : Location} : spawn = .ok () → Starts s roots request path →
      Dispatched s roots spawn request (.ok (s.watches ++ [(request.key, request.handle path)]))
  | stopped : request.operation = .stop →
      Dispatched s roots spawn request (.ok (dropWatch request.key s.watches))
  | refused {error : NativeError} :
      (∀ path, spawn = .ok () → ¬ Starts s roots request path) →
      Dispatched s roots spawn request (.error error)

theorem dispatch_dispatched (s : Watching) (roots : Roots) (spawn : Except String Unit)
    (request : FileWatchRequest) :
    Dispatched s roots spawn request
      (dispatch (filesOf s.world.disk) roots spawn request s.watches) := by
  unfold dispatch
  cases hidentifier : validateIdentifier request.watchId "file watch" with
  | error error =>
      exact .refused fun path _ hstarts => by cases hidentifier.symm.trans hstarts.identifier
  | ok value =>
      dsimp only
      cases hoperation : request.operation with
      | start =>
          cases htarget : request.target with
          | none =>
              refine .refused fun path _ hstarts => ?_
              obtain ⟨target, hsome, -⟩ := hstarts.target
              cases htarget.symm.trans hsome
          | some target =>
              dsimp only
              cases hpath : watchPath (filesOf s.world.disk) roots target with
              | error error =>
                  refine .refused fun path _ hstarts => ?_
                  obtain ⟨other, hsome, hother⟩ := hstarts.target
                  cases htarget.symm.trans hsome
                  cases hpath.symm.trans hother
              | ok path =>
                  dsimp only [bind, Except.bind]
                  cases habsent : (s.watches.lookup request.key).isSome with
                  | true =>
                      exact .refused fun _ _ hstarts => by cases habsent.symm.trans hstarts.absent
                  | false =>
                      cases spawn with
                      | error error => exact .refused fun _ hspawn _ => by cases hspawn
                      | ok value =>
                          exact .started rfl
                            ⟨hidentifier, hoperation, ⟨target, htarget, hpath⟩, habsent⟩
      | stop =>
          dsimp only
          split
          · exact .stopped hoperation
          · refine .refused fun path _ hstarts => ?_
            cases hoperation.symm.trans hstarts.operation

theorem drop_watch_path {key : String} {watches : Watches} {watch : String × WatchHandle}
    (h : watch ∈ dropWatch key watches) : ∃ other ∈ watches, watch.2.path = other.2.path := by
  obtain ⟨other, hother, heq⟩ := List.mem_map.mp h
  refine ⟨other, hother, ?_⟩
  split at heq
  · rw [← heq]
  · rw [heq]

theorem wake_path {world : World} {watch after : WatchHandle} {publishes : Bool}
    (h : watch.wake world = some (after, publishes)) : after.path = watch.path := by
  unfold WatchHandle.wake at h
  cases hthread : watch.thread with
  | starting =>
      rw [hthread] at h
      cases h
      rfl
  | testing prior =>
      rw [hthread] at h
      dsimp only at h
      split at h
      · cases h
      · cases h
        rfl
  | sleeping prior =>
      rw [hthread] at h
      dsimp only at h
      split at h
      · cases h
        rfl
      · cases h
        rfl

/-- A thread that goes on takes no authority that its watch has not. -/
theorem run_authorized {s : Watching} {index : Nat} {key : String} {watch : WatchHandle}
    (hs : Authorized s) (hwatch : s.watches[index]? = some (key, watch)) :
    Authorized (s.run index key watch) := by
  have hreadable := hs.watches (key, watch) (List.mem_of_getElem? hwatch)
  unfold Watching.run
  cases hwake : watch.wake s.world with
  | none => exact ⟨fun other h => hs.watches other (List.mem_of_mem_eraseIdx h), hs.published⟩
  | some next =>
      obtain ⟨after, publishes⟩ := next
      constructor
      · intro other hother
        obtain hother | rfl := List.mem_or_eq_of_mem_set hother
        · exact hs.watches other hother
        · rw [← wake_path hwake] at hreadable
          exact hreadable
      · intro event hevent
        cases publishes with
        | false => exact hs.published event hevent
        | true =>
            obtain hevent | hevent := List.mem_append.mp hevent
            · exact hs.published event hevent
            · obtain rfl := List.mem_singleton.mp hevent
              exact hreadable

/-- A request that is answered starts nothing that the services do not allow to be read, if it was
given the present ones. -/
theorem dispatch_authorized {s : Watching} {index : Nat} {spawn : Except String Unit}
    {request : FileWatchRequest} {roots : Roots} (hs : Authorized s)
    (hrequest : s.requests[index]? = some (request, roots)) :
    Admitted s (.dispatch index spawn) ↔
      Authorized (s.answer index
        (dispatch (filesOf s.world.disk) roots spawn request s.watches)) := by
  have hdispatched := dispatch_dispatched s roots spawn request
  generalize dispatch (filesOf s.world.disk) roots spawn request s.watches = result at hdispatched
  cases hdispatched with
  | @started path hspawn hstarts =>
      have hpresent : roots = s.roots → readable s.world s.roots path = true := by
        intro hroots
        obtain ⟨target, -, hpath⟩ := hstarts.target
        rw [← hroots]
        exact watch_path_readable hpath
      constructor
      · intro hadmitted
        have hreadable : readable s.world s.roots path = true := by
          by_cases hroots : roots = s.roots
          · exact hpresent hroots
          · exact hadmitted request roots path hrequest hroots hspawn hstarts
        refine ⟨fun watch hwatch => ?_, hs.published⟩
        obtain hwatch | hwatch := List.mem_append.mp hwatch
        · exact hs.watches watch hwatch
        · obtain rfl := List.mem_singleton.mp hwatch
          exact hreadable
      · intro hafter request' roots' path' hrequest' _ _ hstarts'
        obtain ⟨rfl, rfl⟩ := Prod.mk.inj (Option.some.inj (hrequest.symm.trans hrequest'))
        obtain ⟨target, htarget, hpath⟩ := hstarts.target
        obtain ⟨target', htarget', hpath'⟩ := hstarts'.target
        obtain rfl := Option.some.inj (htarget.symm.trans htarget')
        obtain rfl := Except.ok.inj (hpath.symm.trans hpath')
        exact hafter.watches (request.key, request.handle path)
          (List.mem_append_right _ (List.mem_singleton.mpr rfl))
  | stopped hoperation =>
      constructor
      · intro _
        refine ⟨fun watch hwatch => ?_, hs.published⟩
        obtain ⟨other, hother, hpath⟩ := drop_watch_path hwatch
        have hreadable := hs.watches other hother
        rw [← hpath] at hreadable
        exact hreadable
      · intro _ request' roots' path' hrequest' _ _ hstarts'
        obtain ⟨rfl, rfl⟩ := Prod.mk.inj (Option.some.inj (hrequest.symm.trans hrequest'))
        cases hoperation.symm.trans hstarts'.operation
  | refused hnot =>
      constructor
      · intro _
        exact ⟨hs.watches, hs.published⟩
      · intro _ request' roots' path' hrequest' _ hspawn hstarts'
        obtain ⟨rfl, rfl⟩ := Prod.mk.inj (Option.some.inj (hrequest.symm.trans hrequest'))
        exact absurd hstarts' (hnot path' hspawn)

/-- A step leaves every watch with its authority exactly when it is admitted. -/
theorem watch_step {s s' : Watching} {event : WatchEvent} (hs : Authorized s)
    (h : fileWatching.next s event = some s') : Admitted s event ↔ Authorized s' := by
  cases event with
  | request request =>
      cases h
      exact ⟨fun _ => ⟨hs.watches, hs.published⟩, fun _ => trivial⟩
  | dispatch index spawn =>
      unfold fileWatching at h
      dsimp only at h
      split at h
      · cases h
      · split at h
        · cases h
        · rename_i request roots hrequest
          cases h
          exact dispatch_authorized hs hrequest
  | run index =>
      unfold fileWatching at h
      dsimp only at h
      split at h
      · cases h
      · rename_i key watch hwatch
        cases h
        exact ⟨fun _ => run_authorized hs hwatch, fun _ => trivial⟩
  | change world =>
      cases h
      exact ⟨fun hadmitted => ⟨hadmitted, hs.published⟩, fun hafter => hafter.watches⟩
  | reload result =>
      cases result with
      | error error =>
          cases h
          exact ⟨fun _ => hs, fun _ => trivial⟩
      | ok roots =>
          cases h
          exact ⟨fun hadmitted => ⟨hadmitted, hs.published⟩, fun hafter => hafter.watches⟩

/-- In which runs no watch outlives its authority. -/
theorem watches_authorized_iff (world : World) (roots : Roots) (events : List WatchEvent)
    (final : Watching) (hplay : fileWatching.play (noWatches world roots) events = some final) :
    fileWatching.Always Authorized (noWatches world roots) events ↔
      fileWatching.Throughout Admitted (noWatches world roots) events := by
  have hstart : Authorized (noWatches world roots) := ⟨nofun, nofun⟩
  exact System.always_iff_throughout (I := fun _ => True) ⟨trivial, hstart⟩ hplay
    fun s event s' _ hs hnext => ⟨trivial, watch_step hs hnext⟩

/-! ## A reload that takes a root away -/

/-- `/d/a` is a file. -/
def notes : Disk := .directory [([100], .directory [([97], .file [] 0o644)])]

theorem notes_linked : Linked notes := by
  have hlinks : notes.NoLinks :=
    Disk.no_links_directory (by
      intro item hitem
      obtain rfl := List.mem_singleton.mp hitem
      exact Disk.no_links_directory (by
        intro inner hinner
        obtain rfl := List.mem_singleton.mp hinner
        exact Disk.no_links_file))
  intro place target h
  exact absurd h (hlinks place _)

/-- The files, as they were modified last at this time. -/
def notesAt (time : Nat) : World := ⟨notes, fun _ => time, notes_linked⟩

def notesRoots : Roots := [("notes", ⟨.read, [[100]]⟩)]

/-- The page `main` asks for a watch of the notes. -/
def notesRequest : FileWatchRequest := ⟨.start, "main", "notes", some ⟨some "notes", none, ""⟩⟩

/-- The watch is started and its thread goes to sleep. -/
def startNotes : List WatchEvent :=
  [.request notesRequest, .dispatch 0 (.ok ()), .run 0, .run 0]

theorem notes_started : dispatch (filesOf notes) notesRoots (.ok ()) notesRequest [] =
    .ok [("main:notes", notesRequest.handle [[100]])] := by
  decide +kernel

/-- The request has been given services. -/
def notesAsked : Watching :=
  { noWatches (notesAt 0) notesRoots with requests := [(notesRequest, notesRoots)] }

/-- The watch has been started. -/
def notesWatched : Watching :=
  { noWatches (notesAt 0) notesRoots with
    watches := [("main:notes", notesRequest.handle [[100]])] }

/-- The thread of the watch sleeps. -/
def notesAsleep : Watching :=
  { noWatches (notesAt 0) notesRoots with
    watches := [("main:notes", { notesRequest.handle [[100]] with
      thread := .sleeping (snapshot (notesAt 0) [[100]]) })] }

theorem notes_dispatched :
    fileWatching.next notesAsked (.dispatch 0 (.ok ())) = some notesWatched :=
  congrArg (fun result => some (notesAsked.answer 0 result)) notes_started

theorem notes_asleep :
    fileWatching.play (noWatches (notesAt 0) notesRoots) startNotes = some notesAsleep := by
  have hasked : fileWatching.next (noWatches (notesAt 0) notesRoots) (.request notesRequest) =
      some notesAsked := rfl
  unfold startNotes
  rw [System.play, hasked, Option.bind_some, System.play, notes_dispatched]
  rfl

/-- The root is taken away by a reload, the file changes, and the page is told. -/
def revokeNotes : List WatchEvent := [.reload (.ok []), .change (notesAt 1), .run 0]

/-- A watch outlives the root that it was granted in, and publishes a change there. -/
theorem revoked_watch_publishes :
    (∃ final, fileWatching.play (noWatches (notesAt 0) notesRoots) (startNotes ++ revokeNotes) =
      some final ∧ ∃ event ∈ final.published,
        readable event.world event.roots event.path = false) ∧
    ¬ fileWatching.Always Authorized (noWatches (notesAt 0) notesRoots)
      (startNotes ++ revokeNotes) := by
  have hplay : ∃ final, fileWatching.play (noWatches (notesAt 0) notesRoots)
      (startNotes ++ revokeNotes) = some final ∧ ∃ event ∈ final.published,
        readable event.world event.roots event.path = false := by
    rw [System.play_append, notes_asleep]
    exact ⟨_, rfl, _, List.mem_singleton.mpr rfl, rfl⟩
  refine ⟨hplay, fun halways => ?_⟩
  obtain ⟨final, hfinal, event, hevent, hrevoked⟩ := hplay
  cases hrevoked.symm.trans ((halways.last hfinal).published event hevent)

/-- A failed reload and one that keeps the root, and the page is told of a change. -/
def keepNotes : List WatchEvent :=
  [.reload (.error "invalid"), .reload (.ok notesRoots), .change (notesAt 1), .run 0]

theorem kept_watch_authorized : fileWatching.Always Authorized
    (noWatches (notesAt 0) notesRoots) (startNotes ++ keepNotes) := by
  have hplay : ∃ final, fileWatching.play (noWatches (notesAt 0) notesRoots)
      (startNotes ++ keepNotes) = some final := by
    rw [System.play_append, notes_asleep]
    exact ⟨_, rfl⟩
  obtain ⟨final, hfinal⟩ := hplay
  refine (watches_authorized_iff (notesAt 0) notesRoots _ final hfinal).mpr ?_
  have hkept : ∀ thread, ∀ watch ∈ [("main:notes",
      { notesRequest.handle [[100]] with thread })],
      readable (notesAt 0) notesRoots watch.2.path = true := by
    intro thread watch hwatch
    obtain rfl := List.mem_singleton.mp hwatch
    rfl
  refine ⟨trivial, fun asked hasked => ?_⟩
  obtain rfl : notesAsked = asked := Option.some.inj hasked
  refine ⟨?_, fun watched hwatched => ?_⟩
  · intro request roots path hrequest hroots
    cases hrequest
    exact absurd rfl hroots
  obtain rfl := Option.some.inj (notes_dispatched.symm.trans hwatched)
  refine ⟨trivial, fun _ hlooked => ⟨trivial, fun _ hasleep => ?_⟩⟩
  cases hlooked
  cases hasleep
  refine ⟨trivial, fun _ hfailed => ⟨?_, fun _ hreloaded => ⟨?_, fun _ hchanged => ⟨trivial, ?_⟩⟩⟩⟩
  · cases hfailed
    exact hkept _
  · cases hfailed
    cases hreloaded
    exact hkept _
  · exact fun _ _ => trivial

end PamDesktop.Native
