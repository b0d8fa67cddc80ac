import PamDesktop.Foundations.FileTree
import PamDesktop.Foundations.Transition

/-!
# Hot reload

The thread of `ProjectWatcher` next to the edits of a developer, the PHP worker and the event loop
that loads the windows. A scan looks at one file after another. `hot_reload_converges` says which
edits are never lost: a poll that finds no difference while no reload is pending leaves a worker
and windows that are younger than every edit the poll could see.
-/

namespace PamDesktop.Gateway.HotReload

open Foundations

/-! ## Files -/

/-- A path below the project root, by its components. -/
abbrev Path := List OsString

/-- `ChangeKind`. -/
inductive ChangeKind where
  | assets
  | runtime
  deriving DecidableEq

/-- `FileStamp`. -/
structure FileStamp where
  bytes : Nat
  modifiedNanos : Nat
  deriving DecidableEq

/-- `ignored_directory`, of one component. -/
def ignoredName (name : OsString) : Bool :=
  [".git", ".pam", "dist", "node_modules", "target", "vendor"].any (osString · == name)

/-- `path.starts_with("resources")`. -/
def underResources (path : Path) : Bool := path.head? == some (osString "resources")

/-- A PHP or Composer file. -/
def sourceFile (path : Path) : Bool :=
  match path.getLast? with
  | none => false
  | some name =>
      extension name == some (osString "php") ||
        name == osString "composer.json" || name == osString "composer.lock"

/-- `watched_file`, for a file that `collect` comes to. -/
def watchedFile (path : Path) : Bool :=
  !path.dropLast.any ignoredName && (underResources path || sourceFile path)

/-- What a scan sees of a path: its stamp, or that there is no such file. -/
abbrev Observation := Option FileStamp

/-- `changed_kind`, over the paths there are. -/
def changedKind (paths : List Path) (previous current : Path → Observation) : Option ChangeKind :=
  let changed := paths.filter fun path => watchedFile path && previous path != current path
  if changed = [] then none
  else if changed.any fun path => !underResources path then some .runtime
  else some .assets

/-! ## The session -/

/-- What a scan has looked at: the moment and what was seen. -/
abbrev Looks := Path → Option (Nat × Observation)

/-- A completed scan. -/
abbrev Snapshot := Path → Nat × Observation

/-- `HostEvent`, as far as reloads send it. -/
inductive HostEvent where
  | reloadViews
  | reconfigure
  deriving DecidableEq

/-- Where the watcher thread stands. `reloading` is the call of `on_change`, `restarted` is
`GatewayState::reload` after `supervisor.restart`. -/
inductive Watcher where
  | absent
  | baseline (looks : Looks)
  | waiting (previous : Snapshot)
  | scanning (previous : Snapshot) (looks : Looks)
  | reloading (kind : ChangeKind) (current : Snapshot)
  | restarted (current : Snapshot)

/-- A development session. `past` and `edits` record what each path has shown before and when it
was edited; `started` is when the running worker was started and `loaded` when the windows were
last loaded. -/
structure Session where
  now : Nat
  files : Path → Observation
  past : Path → List Observation
  edits : Path → List Nat
  started : Option Nat
  loaded : Option Nat
  queue : List HostEvent
  watcher : Watcher

/-- What can happen next. `restart` replaces a worker that failed. -/
inductive Event where
  | edit (path : Path) (seen : Observation)
  | startWorker
  | startWatcher
  | openWindows
  | restart
  | look (path : Path)
  | finish
  | wake
  | reload
  | deliver

/-- Nothing has been looked at. -/
def noLooks : Looks := fun _ => none

/-- Look at one path. -/
def Looks.add (looks : Looks) (path : Path) (look : Nat × Observation) : Looks :=
  fun other => if other = path then some look else looks other

/-- Every path was looked at. -/
def Looks.complete (looks : Looks) (paths : List Path) : Bool :=
  paths.all fun path => (looks path).isSome

/-- The snapshot of a completed scan. -/
def Looks.snapshot (looks : Looks) : Snapshot := fun path => (looks path).getD (0, none)

/-- What a snapshot holds of the files. -/
def Snapshot.seen (snapshot : Snapshot) : Path → Observation := fun path => (snapshot path).2

namespace Session

/-- An edit changes what the path shows to something it never showed before. -/
def edit (s : Session) (path : Path) (seen : Observation) : Option Session :=
  if seen = s.files path ∨ seen ∈ s.past path then none
  else some { s with
    files := fun other => if other = path then seen else s.files other
    past := fun other => if other = path then s.files path :: s.past path else s.past other
    edits := fun other => if other = path then s.now :: s.edits path else s.edits other }

/-- A scan looks at a path it has not looked at yet. -/
def look (s : Session) (path : Path) : Option Session :=
  let seen := (s.now, s.files path)
  match s.watcher with
  | .baseline looks =>
      if looks path = none then some { s with watcher := .baseline (looks.add path seen) }
      else none
  | .scanning previous looks =>
      if looks path = none then
        some { s with watcher := .scanning previous (looks.add path seen) }
      else none
  | _ => none

/-- The end of a scan: the baseline is kept, a later one is compared. -/
def finish (s : Session) (paths : List Path) : Option Session :=
  match s.watcher with
  | .baseline looks =>
      if looks.complete paths then some { s with watcher := .waiting looks.snapshot } else none
  | .scanning previous looks =>
      if looks.complete paths then
        match changedKind paths previous.seen looks.snapshot.seen with
        | none => some { s with watcher := .waiting looks.snapshot }
        | some kind => some { s with watcher := .reloading kind looks.snapshot }
      else none
  | _ => none

/-- The next step of `GatewayState::reload`; the callback returns to the loop at its end. -/
def reload (s : Session) : Option Session :=
  match s.watcher with
  | .reloading .assets current =>
      some { s with queue := s.queue ++ [.reloadViews], watcher := .waiting current }
  | .reloading .runtime current =>
      some { s with started := some s.now, watcher := .restarted current }
  | .restarted current =>
      some { s with queue := s.queue ++ [.reconfigure], watcher := .waiting current }
  | _ => none

/-- The event loop takes an event: both load the windows anew, if there are any. -/
def deliver (s : Session) : Option Session :=
  match s.queue with
  | [] => none
  | _ :: queue => some { s with queue, loaded := s.loaded.map fun _ => s.now }

/-- What an event does, apart from the time it takes. -/
def act (s : Session) (paths : List Path) : Event → Option Session
  | .edit path seen => s.edit path seen
  | .startWorker =>
      match s.started with
      | none => some { s with started := some s.now }
      | some _ => none
  | .startWatcher =>
      match s.started, s.watcher with
      | some _, .absent => some { s with watcher := .baseline noLooks }
      | _, _ => none
  | .openWindows =>
      match s.loaded, s.watcher with
      | some _, _ | none, .absent => none
      | none, _ => some { s with loaded := some s.now }
  | .restart => s.started.map fun _ => { s with started := some s.now }
  | .look path => s.look path
  | .finish => s.finish paths
  | .wake =>
      match s.watcher with
      | .waiting previous => some { s with watcher := .scanning previous noLooks }
      | _ => none
  | .reload => s.reload
  | .deliver => s.deliver

end Session

/-- The session, event by event; every event takes a moment. -/
def session (paths : List Path) : System Session Event where
  next s event := (s.act paths event).map fun s' => { s' with now := s.now + 1 }

/-- Before the worker is started. -/
def opened (files : Path → Observation) : Session :=
  ⟨0, files, fun _ => [], fun _ => [], none, none, [], .absent⟩

/-! ## Convergence -/

/-- The running worker was started after the moment. -/
def Session.WorkerCovers (s : Session) (moment : Nat) : Prop :=
  ∃ started, s.started = some started ∧ moment < started

/-- The windows, if there are any, were loaded after the moment. -/
def Session.WindowsCover (s : Session) (moment : Nat) : Prop :=
  ∀ loaded, s.loaded = some loaded → moment < loaded

/-- Where the event ends a poll that finds no difference while no reload is pending, the worker is
younger than the edits of every watched PHP and Composer file that the poll could see, and the
windows are younger than those of every watched asset. -/
def Converges (paths : List Path) (s : Session) (event : Event) : Prop :=
  ∀ previous looks, event = .finish → s.watcher = .scanning previous looks →
    looks.complete paths = true →
    changedKind paths previous.seen looks.snapshot.seen = none → s.queue = [] →
    ∀ path ∈ paths, watchedFile path = true → ∀ moment ∈ s.edits path,
      moment < (looks.snapshot path).1 →
      (sourceFile path = true → s.WorkerCovers moment) ∧
        (underResources path = true → s.WindowsCover moment)

/-- The first scan has looked at the path. -/
def Watcher.knows (watcher : Watcher) (path : Path) : Bool :=
  match watcher with
  | .absent => false
  | .baseline looks => (looks path).isSome
  | _ => true

/-- The edit is not lost: once the worker is started, PHP and Composer files are edited outside
`resources` and only after the first scan has looked at them; once the windows are loaded, assets
are edited only then. -/
def Noticed (s : Session) : Event → Prop
  | .edit path _ => watchedFile path = true →
      (sourceFile path = true → s.started.isSome = true →
        underResources path = false ∧ s.watcher.knows path = true) ∧
      (underResources path = true → s.loaded.isSome = true → s.watcher.knows path = true)
  | _ => True

instance (s : Session) : ∀ event, Decidable (Noticed s event)
  | .edit path _ => inferInstanceAs (Decidable (watchedFile path = true →
      (sourceFile path = true → s.started.isSome = true →
        underResources path = false ∧ s.watcher.knows path = true) ∧
      (underResources path = true → s.loaded.isSome = true → s.watcher.knows path = true)))
  | .startWorker | .startWatcher | .openWindows | .restart | .look _ | .finish | .wake | .reload
  | .deliver => .isTrue trivial

/-! ## What is covered -/

/-- The worker, once there is one, was started after the moment. -/
def Session.WorkerYounger (s : Session) (moment : Nat) : Prop :=
  ∀ started, s.started = some started → moment < started

/-- The windows are younger than the moment, or about to be loaded anew. -/
def Session.WindowsYounger (s : Session) (moment : Nat) : Prop :=
  s.queue ≠ [] ∨ s.WindowsCover moment

/-- The worker is younger than the edits of a source file before the moment. -/
def SourceCovered (s : Session) (path : Path) (moment : Nat) : Prop :=
  watchedFile path = true → sourceFile path = true → ∀ edited ∈ s.edits path, edited < moment →
    s.WorkerYounger edited

/-- The windows are younger than the edits of an asset before the moment. -/
def AssetCovered (s : Session) (path : Path) (moment : Nat) : Prop :=
  watchedFile path = true → underResources path = true → ∀ edited ∈ s.edits path,
    edited < moment → s.WindowsYounger edited

/-- What a look saw is what the path shows, with no edit since, or what it showed in the past. -/
structure Seen (s : Session) (path : Path) (look : Nat × Observation) : Prop where
  before : look.1 < s.now
  record : (s.files path = look.2 ∧ ∀ edited ∈ s.edits path, edited < look.1) ∨
    look.2 ∈ s.past path

/-- If a later look saw the same, nothing was edited between the two. -/
def Repeats (s : Session) (path : Path) (first second : Nat × Observation) : Prop :=
  second.2 = first.2 → ∀ edited ∈ s.edits path, edited < second.1 → edited < first.1

/-- What the watcher thread knows is recorded, and covered up to its last look. -/
def Follows (paths : List Path) (s : Session) : Prop :=
  match s.watcher with
  | .absent => ∀ path ∈ paths, SourceCovered s path s.now ∧ AssetCovered s path s.now
  | .baseline looks => ∀ path ∈ paths,
      (looks path = none → SourceCovered s path s.now ∧ AssetCovered s path s.now) ∧
        ∀ look, looks path = some look →
          Seen s path look ∧ SourceCovered s path look.1 ∧ AssetCovered s path look.1
  | .waiting previous => ∀ path ∈ paths, Seen s path (previous path) ∧
      SourceCovered s path (previous path).1 ∧ AssetCovered s path (previous path).1
  | .scanning previous looks => ∀ path ∈ paths, (Seen s path (previous path) ∧
      SourceCovered s path (previous path).1 ∧ AssetCovered s path (previous path).1) ∧
        ∀ look, looks path = some look → Seen s path look ∧ Repeats s path (previous path) look
  | .reloading kind current => ∀ path ∈ paths, Seen s path (current path) ∧
      (kind = .assets → SourceCovered s path (current path).1)
  | .restarted current => ∀ path ∈ paths, Seen s path (current path) ∧
      SourceCovered s path (current path).1

/-- The invariant of a session in which every edit is noticed. -/
structure Current (paths : List Path) (s : Session) : Prop where
  edited : ∀ path, ∀ edited ∈ s.edits path, edited < s.now
  changed : ∀ path, s.files path ∉ s.past path
  running : s.started = none → s.watcher = .absent
  misplaced : ∀ path, underResources path = true → SourceCovered s path s.now
  follows : Follows paths s

section

variable {paths : List Path} {s s' : Session} {path : Path} {moment : Nat}

/-- Nothing was edited, and what was young stays young. -/
structure Later (s s' : Session) : Prop where
  files : s'.files = s.files
  past : s'.past = s.past
  edits : s'.edits = s.edits
  now : s.now < s'.now
  worker : ∀ moment < s.now, s.WorkerYounger moment → s'.WorkerYounger moment
  windows : ∀ moment < s.now, s.WindowsYounger moment → s'.WindowsYounger moment

theorem SourceCovered.later (h : SourceCovered s path moment) (hlater : Later s s')
    (hedited : ∀ edited ∈ s.edits path, edited < s.now) : SourceCovered s' path moment := by
  intro hwatched hsource edited hmem hlt
  rw [hlater.edits] at hmem
  exact hlater.worker edited (hedited edited hmem) (h hwatched hsource edited hmem hlt)

theorem AssetCovered.later (h : AssetCovered s path moment) (hlater : Later s s')
    (hedited : ∀ edited ∈ s.edits path, edited < s.now) : AssetCovered s' path moment := by
  intro hwatched hasset edited hmem hlt
  rw [hlater.edits] at hmem
  exact hlater.windows edited (hedited edited hmem) (h hwatched hasset edited hmem hlt)

/-- What is covered up to now is covered altogether. -/
theorem SourceCovered.all (h : SourceCovered s path s.now)
    (hedited : ∀ edited ∈ s.edits path, edited < s.now) : SourceCovered s path moment := by
  intro hwatched hsource edited hmem _
  exact h hwatched hsource edited hmem (hedited edited hmem)

theorem AssetCovered.all (h : AssetCovered s path s.now)
    (hedited : ∀ edited ∈ s.edits path, edited < s.now) : AssetCovered s path moment := by
  intro hwatched hasset edited hmem _
  exact h hwatched hasset edited hmem (hedited edited hmem)

theorem Seen.later {look : Nat × Observation} (h : Seen s path look) (hlater : Later s s') :
    Seen s' path look := by
  refine ⟨Nat.lt_trans h.before hlater.now, ?_⟩
  rw [hlater.files, hlater.past, hlater.edits]
  exact h.record

theorem Repeats.later {first second : Nat × Observation} (h : Repeats s path first second)
    (hlater : Later s s') : Repeats s' path first second := by
  unfold Repeats
  rw [hlater.edits]
  exact h

/-- A look at the present. -/
theorem Later.seen (hlater : Later s s') (hedited : ∀ edited ∈ s.edits path, edited < s.now) :
    Seen s' path (s.now, s.files path) := by
  refine ⟨hlater.now, .inl ⟨by rw [hlater.files], fun edited hmem => ?_⟩⟩
  rw [hlater.edits] at hmem
  exact hedited edited hmem

/-- A look at the present that sees what an earlier look saw. -/
theorem Seen.repeats {look : Nat × Observation} (h : Seen s path look)
    (hchanged : s.files path ∉ s.past path) : Repeats s path look (s.now, s.files path) := by
  intro hsame edited hmem _
  obtain ⟨-, hbefore⟩ | hpast := h.record
  · exact hbefore edited hmem
  · rw [← hsame] at hpast
    exact absurd hpast hchanged

/-- A changed path makes a change. -/
theorem unchanged_of_kind {previous current : Path → Observation}
    (h : changedKind paths previous current = none) (hmem : path ∈ paths)
    (hwatched : watchedFile path = true) : current path = previous path := by
  simp only [changedKind] at h
  split at h
  · rename_i hnone
    by_contra hne
    have hin : path ∈ paths.filter fun path => watchedFile path && previous path != current path := by
      rw [List.mem_filter, hwatched, Bool.true_and, bne_iff_ne]
      exact ⟨hmem, fun heq => hne heq.symm⟩
    rw [hnone] at hin
    cases hin
  · split at h <;> cases h

/-- Where only assets count as changed, what lies elsewhere has not changed. -/
theorem unchanged_of_assets {previous current : Path → Observation}
    (h : changedKind paths previous current = some .assets) (hmem : path ∈ paths)
    (hwatched : watchedFile path = true) (houtside : underResources path = false) :
    current path = previous path := by
  simp only [changedKind] at h
  split at h
  · cases h
  · split at h
    · cases h
    · rename_i hunder
      by_contra hne
      refine hunder (List.any_eq_true.mpr ⟨path, ?_, by rw [houtside]; rfl⟩)
      rw [List.mem_filter, hwatched, Bool.true_and, bne_iff_ne]
      exact ⟨hmem, fun heq => hne heq.symm⟩

/-! ## Steps -/

/-- The state after a moment. -/
abbrev Session.tick (s s' : Session) : Session := { s' with now := s.now + 1 }

/-- A step that leaves the worker, the windows and the queue alone. -/
theorem later_still (watcher : Watcher) : Later s (s.tick { s with watcher }) :=
  ⟨rfl, rfl, rfl, Nat.lt_succ_self _, fun _ _ h => h, fun _ _ h => h⟩

/-- The worker is replaced. -/
theorem later_started (watcher : Watcher) :
    Later s (s.tick { s with started := some s.now, watcher }) := by
  refine ⟨rfl, rfl, rfl, Nat.lt_succ_self _, fun moment hlt _ => ?_, fun _ _ h => h⟩
  intro started hstarted
  obtain rfl : s.now = started := Option.some.inj hstarted
  exact hlt

/-- A reload of the windows is asked for. -/
theorem later_queued (event : HostEvent) (watcher : Watcher) :
    Later s (s.tick { s with queue := s.queue ++ [event], watcher }) :=
  ⟨rfl, rfl, rfl, Nat.lt_succ_self _, fun _ _ h => h,
    fun _ _ _ => .inl (List.append_ne_nil_of_right_ne_nil _ (List.cons_ne_nil _ _))⟩

/-- The windows are loaded. -/
theorem later_loaded (queue : List HostEvent) :
    Later s (s.tick { s with queue, loaded := s.loaded.map fun _ => s.now }) := by
  refine ⟨rfl, rfl, rfl, Nat.lt_succ_self _, fun _ _ h => h, fun moment hlt _ => .inr ?_⟩
  intro loaded hloaded
  obtain ⟨before, -, rfl⟩ := Option.map_eq_some_iff.mp hloaded
  exact hlt

theorem later_opened (watcher : Watcher) :
    Later s (s.tick { s with loaded := some s.now, watcher }) := by
  refine ⟨rfl, rfl, rfl, Nat.lt_succ_self _, fun _ _ h => h, fun moment hlt _ => .inr ?_⟩
  intro loaded hloaded
  obtain rfl : s.now = loaded := Option.some.inj hloaded
  exact hlt

/-- A step without an edit, from what the watcher thread knows after it. -/
theorem Current.step (h : Current paths s) (hlater : Later s s')
    (hrunning : s'.started = none → s'.watcher = .absent) (hfollows : Follows paths s') :
    Current paths s' := by
  refine ⟨fun path edited hmem => ?_, fun path => ?_, hrunning, fun path hunder => ?_, hfollows⟩
  · rw [hlater.edits] at hmem
    exact Nat.lt_trans (h.edited path edited hmem) hlater.now
  · rw [hlater.files, hlater.past]
    exact h.changed path
  · exact ((h.misplaced path hunder).all (h.edited path)).later hlater (h.edited path)

/-- The watcher thread runs only beside a worker that was started. -/
theorem Current.started_ne_none (h : Current paths s) {watcher : Watcher}
    (hstate : s.watcher = watcher) (hwatcher : watcher ≠ .absent) : s.started ≠ none :=
  fun hnone => hwatcher (hstate.symm.trans (h.running hnone))

/-- What the watcher thread knew it still knows. -/
theorem Follows.later (h : Follows paths s) (hlater : Later s s')
    (hedited : ∀ path, ∀ edited ∈ s.edits path, edited < s.now)
    (hwatcher : s'.watcher = s.watcher) : Follows paths s' := by
  unfold Follows at h ⊢
  rw [hwatcher]
  cases hstate : s.watcher with
  | absent =>
      rw [hstate] at h
      intro path hmem
      obtain ⟨hsource, hasset⟩ := h path hmem
      exact ⟨(hsource.all (hedited path)).later hlater (hedited path),
        (hasset.all (hedited path)).later hlater (hedited path)⟩
  | baseline looks =>
      rw [hstate] at h
      intro path hmem
      obtain ⟨hnone, hsome⟩ := h path hmem
      refine ⟨fun hlook => ?_, fun look hlook => ?_⟩
      · obtain ⟨hsource, hasset⟩ := hnone hlook
        exact ⟨(hsource.all (hedited path)).later hlater (hedited path),
          (hasset.all (hedited path)).later hlater (hedited path)⟩
      · obtain ⟨hseen, hsource, hasset⟩ := hsome look hlook
        exact ⟨hseen.later hlater, hsource.later hlater (hedited path),
          hasset.later hlater (hedited path)⟩
  | waiting previous =>
      rw [hstate] at h
      intro path hmem
      obtain ⟨hseen, hsource, hasset⟩ := h path hmem
      exact ⟨hseen.later hlater, hsource.later hlater (hedited path),
        hasset.later hlater (hedited path)⟩
  | scanning previous looks =>
      rw [hstate] at h
      intro path hmem
      obtain ⟨⟨hseen, hsource, hasset⟩, hsome⟩ := h path hmem
      refine ⟨⟨hseen.later hlater, hsource.later hlater (hedited path),
        hasset.later hlater (hedited path)⟩, fun look hlook => ?_⟩
      obtain ⟨hseen', hrepeats⟩ := hsome look hlook
      exact ⟨hseen'.later hlater, hrepeats.later hlater⟩
  | reloading kind current =>
      rw [hstate] at h
      intro path hmem
      obtain ⟨hseen, hsource⟩ := h path hmem
      exact ⟨hseen.later hlater, fun hkind => (hsource hkind).later hlater (hedited path)⟩
  | restarted current =>
      rw [hstate] at h
      intro path hmem
      obtain ⟨hseen, hsource⟩ := h path hmem
      exact ⟨hseen.later hlater, hsource.later hlater (hedited path)⟩

theorem Current.look (h : Current paths s) {looked : Session} (hlook : s.look path = some looked) :
    Current paths (s.tick looked) := by
  have hfollows := h.follows
  unfold Session.look at hlook
  unfold Follows at hfollows
  cases hstate : s.watcher with
  | baseline looks =>
      have hrunning : s.started ≠ none := h.started_ne_none hstate nofun
      rw [hstate] at hlook hfollows
      simp only at hlook
      split at hlook
      · rename_i hnew
        cases hlook
        have hlater := later_still (s := s) (.baseline (looks.add path (s.now, s.files path)))
        refine h.step hlater (fun hnone => absurd hnone hrunning) fun other hmem => ?_
        obtain ⟨hnone, hsome⟩ := hfollows other hmem
        by_cases hother : other = path
        · subst hother
          obtain ⟨hsource, hasset⟩ := hnone hnew
          refine ⟨fun hlook => ?_, fun look hlook => ?_⟩
          · rw [Looks.add, if_pos rfl] at hlook
            cases hlook
          · rw [Looks.add, if_pos rfl] at hlook
            cases hlook
            exact ⟨hlater.seen (h.edited other), hsource.later hlater (h.edited other),
              hasset.later hlater (h.edited other)⟩
        · refine ⟨fun hlook => ?_, fun look hlook => ?_⟩
          · rw [Looks.add, if_neg hother] at hlook
            obtain ⟨hsource, hasset⟩ := hnone hlook
            exact ⟨(hsource.all (h.edited other)).later hlater (h.edited other),
              (hasset.all (h.edited other)).later hlater (h.edited other)⟩
          · rw [Looks.add, if_neg hother] at hlook
            obtain ⟨hseen, hsource, hasset⟩ := hsome look hlook
            exact ⟨hseen.later hlater, hsource.later hlater (h.edited other),
              hasset.later hlater (h.edited other)⟩
      · cases hlook
  | scanning previous looks =>
      have hrunning : s.started ≠ none := h.started_ne_none hstate nofun
      rw [hstate] at hlook hfollows
      simp only at hlook
      split at hlook
      · cases hlook
        have hlater :=
          later_still (s := s) (.scanning previous (looks.add path (s.now, s.files path)))
        refine h.step hlater (fun hnone => absurd hnone hrunning) fun other hmem => ?_
        obtain ⟨⟨hseen, hsource, hasset⟩, hsome⟩ := hfollows other hmem
        refine ⟨⟨hseen.later hlater, hsource.later hlater (h.edited other),
          hasset.later hlater (h.edited other)⟩, fun look hlook => ?_⟩
        by_cases hother : other = path
        · subst hother
          rw [Looks.add, if_pos rfl] at hlook
          cases hlook
          exact ⟨hlater.seen (h.edited other), (hseen.repeats (h.changed other)).later hlater⟩
        · rw [Looks.add, if_neg hother] at hlook
          obtain ⟨hseen', hrepeats⟩ := hsome look hlook
          exact ⟨hseen'.later hlater, hrepeats.later hlater⟩
      · cases hlook
  | _ =>
      rw [hstate] at hlook
      cases hlook

/-- The look of a completed scan. -/
theorem Looks.of_complete {looks : Looks} (h : looks.complete paths = true) (hmem : path ∈ paths) :
    looks path = some (looks.snapshot path) := by
  obtain ⟨look, hlook⟩ := Option.isSome_iff_exists.mp (List.all_eq_true.mp h path hmem)
  rw [Looks.snapshot, hlook]
  rfl

theorem Current.finish (h : Current paths s) {finished : Session}
    (hfinish : s.finish paths = some finished) : Current paths (s.tick finished) := by
  have hfollows := h.follows
  unfold Session.finish at hfinish
  unfold Follows at hfollows
  cases hstate : s.watcher with
  | baseline looks =>
      have hrunning : s.started ≠ none := h.started_ne_none hstate nofun
      rw [hstate] at hfinish hfollows
      simp only at hfinish
      split at hfinish
      · rename_i hcomplete
        cases hfinish
        have hlater := later_still (s := s) (.waiting looks.snapshot)
        refine h.step hlater (fun hnone => absurd hnone hrunning) fun path hmem => ?_
        obtain ⟨hseen, hsource, hasset⟩ :=
          (hfollows path hmem).2 _ (Looks.of_complete hcomplete hmem)
        exact ⟨hseen.later hlater, hsource.later hlater (h.edited path),
          hasset.later hlater (h.edited path)⟩
      · cases hfinish
  | scanning previous looks =>
      have hrunning : s.started ≠ none := h.started_ne_none hstate nofun
      rw [hstate] at hfinish hfollows
      simp only at hfinish
      split at hfinish
      · rename_i hcomplete
        split at hfinish
        · -- what has not changed was covered by the previous scan
          rename_i hkind
          cases hfinish
          have hlater := later_still (s := s) (.waiting looks.snapshot)
          refine h.step hlater (fun hnone => absurd hnone hrunning) fun path hmem => ?_
          obtain ⟨⟨-, hsource, hasset⟩, hsome⟩ := hfollows path hmem
          obtain ⟨hseen, hrepeats⟩ := hsome _ (Looks.of_complete hcomplete hmem)
          refine ⟨hseen.later hlater, SourceCovered.later ?_ hlater (h.edited path),
            AssetCovered.later ?_ hlater (h.edited path)⟩
          · intro hwatched hfile edited hedited hlt
            have hsame := unchanged_of_kind hkind hmem hwatched
            exact hsource hwatched hfile edited hedited (hrepeats hsame edited hedited hlt)
          · intro hwatched hfile edited hedited hlt
            have hsame := unchanged_of_kind hkind hmem hwatched
            exact hasset hwatched hfile edited hedited (hrepeats hsame edited hedited hlt)
        · rename_i kind hkind
          cases hfinish
          have hlater := later_still (s := s) (.reloading kind looks.snapshot)
          refine h.step hlater (fun hnone => absurd hnone hrunning) fun path hmem => ?_
          obtain ⟨⟨-, hsource, -⟩, hsome⟩ := hfollows path hmem
          obtain ⟨hseen, hrepeats⟩ := hsome _ (Looks.of_complete hcomplete hmem)
          refine ⟨hseen.later hlater, fun hassets => ?_⟩
          subst hassets
          refine SourceCovered.later ?_ hlater (h.edited path)
          cases hunder : underResources path with
          | true => exact (h.misplaced path hunder).all (h.edited path)
          | false =>
              intro hwatched hfile edited hedited hlt
              have hsame := unchanged_of_assets hkind hmem hwatched hunder
              exact hsource hwatched hfile edited hedited (hrepeats hsame edited hedited hlt)
      · cases hfinish
  | _ =>
      rw [hstate] at hfinish
      cases hfinish

theorem Current.reload (h : Current paths s) {reloaded : Session}
    (hreload : s.reload = some reloaded) : Current paths (s.tick reloaded) := by
  have hfollows := h.follows
  unfold Session.reload at hreload
  unfold Follows at hfollows
  cases hstate : s.watcher with
  | reloading kind current =>
      have hrunning : s.started ≠ none := h.started_ne_none hstate nofun
      rw [hstate] at hreload hfollows
      cases kind with
      | assets =>
          cases hreload
          have hlater := later_queued (s := s) .reloadViews (.waiting current)
          refine h.step hlater (fun hnone => absurd hnone hrunning) fun path hmem => ?_
          obtain ⟨hseen, hsource⟩ := hfollows path hmem
          exact ⟨hseen.later hlater, (hsource rfl).later hlater (h.edited path),
            fun _ _ _ _ _ => .inl (List.append_ne_nil_of_right_ne_nil _ (List.cons_ne_nil _ _))⟩
      | runtime =>
          cases hreload
          have hlater := later_started (s := s) (.restarted current)
          refine h.step hlater nofun fun path hmem => ?_
          refine ⟨(hfollows path hmem).1.later hlater, fun _ _ edited hedited _ started hstarted => ?_⟩
          obtain rfl : s.now = started := Option.some.inj hstarted
          exact h.edited path edited hedited
  | restarted current =>
      have hrunning : s.started ≠ none := h.started_ne_none hstate nofun
      rw [hstate] at hreload hfollows
      cases hreload
      have hlater := later_queued (s := s) .reconfigure (.waiting current)
      refine h.step hlater (fun hnone => absurd hnone hrunning) fun path hmem => ?_
      obtain ⟨hseen, hsource⟩ := hfollows path hmem
      exact ⟨hseen.later hlater, hsource.later hlater (h.edited path),
        fun _ _ _ _ _ => .inl (List.append_ne_nil_of_right_ne_nil _ (List.cons_ne_nil _ _))⟩
  | _ =>
      rw [hstate] at hreload
      cases hreload

/-- What an edit leaves of a look: the edited path moves on. -/
theorem Seen.edit {edited : Session} {seen : Observation} {other : Path} {look : Nat × Observation}
    (h : Seen s other look) (hedit : s.edit path seen = some edited) :
    Seen (s.tick edited) other look := by
  unfold Session.edit at hedit
  split at hedit
  · cases hedit
  · cases hedit
    refine ⟨Nat.lt_succ_of_lt h.before, ?_⟩
    by_cases hother : other = path
    · subst hother
      right
      show look.2 ∈ if other = other then _ else _
      rw [if_pos rfl]
      obtain ⟨hfile, -⟩ | hpast := h.record
      · rw [hfile]
        exact List.mem_cons_self
      · exact List.mem_cons_of_mem _ hpast
    · obtain ⟨hfile, hbefore⟩ | hpast := h.record
      · left
        show (if other = path then _ else _) = _ ∧ ∀ moment ∈ if other = path then _ else _, _
        rw [if_neg hother, if_neg hother]
        exact ⟨hfile, hbefore⟩
      · right
        show look.2 ∈ if other = path then _ else _
        rw [if_neg hother]
        exact hpast

/-- The moments at which a path was edited, after an edit. -/
theorem edits_edit {edited : Session} {seen : Observation} {other : Path}
    (hedit : s.edit path seen = some edited) (hmem : moment ∈ edited.edits other) :
    (other = path ∧ moment = s.now) ∨ moment ∈ s.edits other := by
  unfold Session.edit at hedit
  split at hedit
  · cases hedit
  · cases hedit
    change moment ∈ if other = path then _ else _ at hmem
    split at hmem
    · rename_i hother
      subst hother
      obtain rfl | hmem := List.mem_cons.mp hmem
      · exact .inl ⟨rfl, rfl⟩
      · exact .inr hmem
    · exact .inr hmem

/-- An edit changes neither the worker nor the windows nor the watcher. -/
theorem edit_keeps {edited : Session} {seen : Observation}
    (hedit : s.edit path seen = some edited) : edited.started = s.started ∧
      edited.loaded = s.loaded ∧ edited.queue = s.queue ∧ edited.watcher = s.watcher := by
  unfold Session.edit at hedit
  split at hedit
  · cases hedit
  · cases hedit
    exact ⟨rfl, rfl, rfl, rfl⟩

/-- Coverage after an edit: the new edit must lie outside, or be made before the worker starts. -/
theorem SourceCovered.edit {edited : Session} {seen : Observation} {other : Path} {bound : Nat}
    (h : SourceCovered s other moment) (hedit : s.edit path seen = some edited)
    (hold : ∀ t ∈ s.edits other, t < bound → t < moment)
    (hnew : other = path → s.now < bound → watchedFile other = true → sourceFile other = true →
      s.started = none) : SourceCovered (s.tick edited) other bound := by
  obtain ⟨hstarted, -, -, -⟩ := edit_keeps hedit
  intro hwatched hsource t hmem hlt started hsome
  replace hsome : edited.started = some started := hsome
  rw [hstarted] at hsome
  obtain ⟨hother, rfl⟩ | hmem := edits_edit hedit hmem
  · rw [hnew hother hlt hwatched hsource] at hsome
    cases hsome
  · exact h hwatched hsource t hmem (hold t hmem hlt) started hsome

theorem AssetCovered.edit {edited : Session} {seen : Observation} {other : Path} {bound : Nat}
    (h : AssetCovered s other moment) (hedit : s.edit path seen = some edited)
    (hold : ∀ t ∈ s.edits other, t < bound → t < moment)
    (hnew : other = path → s.now < bound → watchedFile other = true →
      underResources other = true → s.loaded = none) :
    AssetCovered (s.tick edited) other bound := by
  obtain ⟨-, hloaded, hqueue, -⟩ := edit_keeps hedit
  intro hwatched hasset t hmem hlt
  have hyounger : s.WindowsYounger t := by
    obtain ⟨hother, rfl⟩ | hmem := edits_edit hedit hmem
    · right
      intro loaded hsome
      rw [hnew hother hlt hwatched hasset] at hsome
      cases hsome
    · exact h hwatched hasset t hmem (hold t hmem hlt)
  unfold Session.WindowsYounger Session.WindowsCover at hyounger ⊢
  show edited.queue ≠ [] ∨ ∀ loaded, edited.loaded = some loaded → _
  rw [hqueue, hloaded]
  exact hyounger

theorem Repeats.edit {edited : Session} {seen : Observation} {other : Path}
    {first second : Nat × Observation} (h : Repeats s other first second)
    (hbefore : second.1 < s.now) (hedit : s.edit path seen = some edited) :
    Repeats (s.tick edited) other first second := by
  intro hsame t hmem hlt
  obtain ⟨-, rfl⟩ | hmem := edits_edit hedit hmem
  · omega
  · exact h hsame t hmem hlt

/-- What is known of a path that the first scan has looked at outlives an edit. -/
theorem Seen.covered_edit {edited : Session} {seen : Observation} {other : Path}
    {look : Nat × Observation} (h : Seen s other look) (hedit : s.edit path seen = some edited) :
    (SourceCovered s other look.1 → SourceCovered (s.tick edited) other look.1) ∧
      (AssetCovered s other look.1 → AssetCovered (s.tick edited) other look.1) := by
  have hbefore := h.before
  exact ⟨fun hsource => hsource.edit hedit (fun _ _ hlt => hlt) fun _ hlt => by omega,
    fun hasset => hasset.edit hedit (fun _ _ hlt => hlt) fun _ hlt => by omega⟩

/-- What is known of a path that the first scan has not looked at outlives an edit that is
noticed. -/
theorem unknown_covered_edit {edited : Session} {seen : Observation} {other : Path}
    (hedited : ∀ t ∈ s.edits other, t < s.now)
    (hsource : SourceCovered s other s.now) (hasset : AssetCovered s other s.now)
    (hunknown : other = path → s.watcher.knows path = false)
    (hnoticed : Noticed s (.edit path seen)) (hedit : s.edit path seen = some edited) :
    SourceCovered (s.tick edited) other (s.now + 1) ∧
      AssetCovered (s.tick edited) other (s.now + 1) := by
  constructor
  · refine hsource.edit hedit (fun t hmem _ => hedited t hmem) fun hother _ hwatched hfile => ?_
    subst hother
    cases hstarted : s.started with
    | none => rfl
    | some started =>
        have := ((hnoticed hwatched).1 hfile (by rw [hstarted]; rfl)).2
        rw [hunknown rfl] at this
        cases this
  · refine hasset.edit hedit (fun t hmem _ => hedited t hmem) fun hother _ hwatched hunder => ?_
    subst hother
    cases hloaded : s.loaded with
    | none => rfl
    | some loaded =>
        have := (hnoticed hwatched).2 hunder (by rw [hloaded]; rfl)
        rw [hunknown rfl] at this
        cases this

theorem Follows.edit {edited : Session} {seen : Observation} (h : Follows paths s)
    (hedited : ∀ path, ∀ t ∈ s.edits path, t < s.now) (hnoticed : Noticed s (.edit path seen))
    (hedit : s.edit path seen = some edited) : Follows paths (s.tick edited) := by
  obtain ⟨-, -, -, hwatcher⟩ := edit_keeps hedit
  have hstate' : (s.tick edited).watcher = s.watcher := hwatcher
  unfold Follows at h ⊢
  rw [hstate']
  cases hstate : s.watcher with
  | absent =>
      rw [hstate] at h
      intro other hmem
      obtain ⟨hsource, hasset⟩ := h other hmem
      exact unknown_covered_edit (hedited other) hsource hasset
        (fun _ => by rw [hstate]; rfl) hnoticed hedit
  | baseline looks =>
      rw [hstate] at h
      intro other hmem
      obtain ⟨hnone, hsome⟩ := h other hmem
      refine ⟨fun hlook => ?_, fun look hlook => ?_⟩
      · obtain ⟨hsource, hasset⟩ := hnone hlook
        refine unknown_covered_edit (hedited other) hsource hasset (fun hother => ?_) hnoticed hedit
        rw [hstate, ← hother]
        show (looks other).isSome = false
        rw [hlook]
        rfl
      · obtain ⟨hseen, hsource, hasset⟩ := hsome look hlook
        obtain ⟨hsource', hasset'⟩ := hseen.covered_edit hedit
        exact ⟨hseen.edit hedit, hsource' hsource, hasset' hasset⟩
  | waiting previous =>
      rw [hstate] at h
      intro other hmem
      obtain ⟨hseen, hsource, hasset⟩ := h other hmem
      obtain ⟨hsource', hasset'⟩ := hseen.covered_edit hedit
      exact ⟨hseen.edit hedit, hsource' hsource, hasset' hasset⟩
  | scanning previous looks =>
      rw [hstate] at h
      intro other hmem
      obtain ⟨⟨hseen, hsource, hasset⟩, hsome⟩ := h other hmem
      obtain ⟨hsource', hasset'⟩ := hseen.covered_edit hedit
      refine ⟨⟨hseen.edit hedit, hsource' hsource, hasset' hasset⟩, fun look hlook => ?_⟩
      obtain ⟨hseen', hrepeats⟩ := hsome look hlook
      exact ⟨hseen'.edit hedit, hrepeats.edit hseen'.before hedit⟩
  | reloading kind current =>
      rw [hstate] at h
      intro other hmem
      obtain ⟨hseen, hsource⟩ := h other hmem
      exact ⟨hseen.edit hedit, fun hkind => (hseen.covered_edit hedit).1 (hsource hkind)⟩
  | restarted current =>
      rw [hstate] at h
      intro other hmem
      obtain ⟨hseen, hsource⟩ := h other hmem
      exact ⟨hseen.edit hedit, (hseen.covered_edit hedit).1 hsource⟩

theorem Current.edit {edited : Session} {seen : Observation} (h : Current paths s)
    (hnoticed : Noticed s (.edit path seen)) (hedit : s.edit path seen = some edited) :
    Current paths (s.tick edited) := by
  obtain ⟨hstarted, -, -, hwatcher⟩ := edit_keeps hedit
  refine ⟨fun other t hmem => ?_, fun other => ?_, fun hnone => ?_, fun other hunder => ?_,
    h.follows.edit h.edited hnoticed hedit⟩
  · obtain ⟨-, rfl⟩ | hmem := edits_edit hedit hmem
    · exact Nat.lt_succ_self _
    · exact Nat.lt_succ_of_lt (h.edited other t hmem)
  · unfold Session.edit at hedit
    split at hedit
    · cases hedit
    · rename_i hfresh
      cases hedit
      by_cases hother : other = path
      · subst hother
        show (if other = other then seen else _) ∉ if other = other then _ else _
        rw [if_pos rfl, if_pos rfl, List.mem_cons]
        exact hfresh
      · show (if other = path then seen else _) ∉ if other = path then _ else _
        rw [if_neg hother, if_neg hother]
        exact h.changed other
  · show edited.watcher = .absent
    rw [hwatcher]
    apply h.running
    rw [← hstarted]
    exact hnone
  · refine (h.misplaced other hunder).edit hedit (fun t hmem _ => h.edited other t hmem)
      fun hother _ hwatched hfile => ?_
    subst hother
    cases hstarted : s.started with
    | none => rfl
    | some started =>
        have := ((hnoticed hwatched).1 hfile (by rw [hstarted]; rfl)).1
        rw [hunder] at this
        cases this

/-- Every noticed step keeps the invariant. -/
theorem Current.next {event : Event} (h : Current paths s) (hnoticed : Noticed s event)
    (hnext : (session paths).next s event = some s') : Current paths s' := by
  obtain ⟨acted, hact, rfl⟩ := Option.map_eq_some_iff.mp hnext
  cases event with
  | edit path seen => exact h.edit hnoticed hact
  | look path => exact h.look hact
  | finish => exact h.finish hact
  | reload => exact h.reload hact
  | startWorker =>
      simp only [Session.act] at hact
      split at hact <;> cases hact
      have hlater := later_started (s := s) s.watcher
      exact h.step hlater nofun (h.follows.later hlater h.edited rfl)
  | restart =>
      obtain ⟨started, -, rfl⟩ := Option.map_eq_some_iff.mp hact
      have hlater := later_started (s := s) s.watcher
      exact h.step hlater nofun (h.follows.later hlater h.edited rfl)
  | startWatcher =>
      simp only [Session.act] at hact
      split at hact <;> cases hact
      rename_i started hstarted hstate
      have hfollows := h.follows
      unfold Follows at hfollows
      rw [hstate] at hfollows
      have hlater := later_still (s := s) (.baseline noLooks)
      refine h.step hlater (fun hnone => ?_) fun path hmem => ⟨fun _ => ?_, nofun⟩
      · exact absurd (hstarted.symm.trans hnone) nofun
      · obtain ⟨hsource, hasset⟩ := hfollows path hmem
        exact ⟨(hsource.all (h.edited path)).later hlater (h.edited path),
          (hasset.all (h.edited path)).later hlater (h.edited path)⟩
  | openWindows =>
      simp only [Session.act] at hact
      split at hact <;> cases hact
      have hlater := later_opened (s := s) s.watcher
      exact h.step hlater h.running (h.follows.later hlater h.edited rfl)
  | wake =>
      simp only [Session.act] at hact
      split at hact <;> cases hact
      rename_i previous hstate
      have hfollows := h.follows
      unfold Follows at hfollows
      rw [hstate] at hfollows
      have hlater := later_still (s := s) (.scanning previous noLooks)
      refine h.step hlater (fun hnone => ?_) fun path hmem => ⟨?_, nofun⟩
      · have := h.running hnone
        rw [hstate] at this
        cases this
      · obtain ⟨hseen, hsource, hasset⟩ := hfollows path hmem
        exact ⟨hseen.later hlater, hsource.later hlater (h.edited path),
          hasset.later hlater (h.edited path)⟩
  | deliver =>
      simp only [Session.act, Session.deliver] at hact
      split at hact <;> cases hact
      rename_i event queue hqueue
      have hlater := later_loaded (s := s) queue
      exact h.step hlater h.running (h.follows.later hlater h.edited rfl)

/-- A poll that finds no difference leaves nothing to reload. -/
theorem Current.converges (h : Current paths s) (event : Event) : Converges paths s event := by
  intro previous looks _ hstate hcomplete hkind hqueue path hmem hwatched moment hmoment hlt
  have hfollows := h.follows
  unfold Follows at hfollows
  rw [hstate] at hfollows
  obtain ⟨⟨-, hsource, hasset⟩, hsome⟩ := hfollows path hmem
  obtain ⟨-, hrepeats⟩ := hsome _ (Looks.of_complete hcomplete hmem)
  have hbefore := hrepeats (unchanged_of_kind hkind hmem hwatched) moment hmoment hlt
  refine ⟨fun hfile => ?_, fun hunder => ?_⟩
  · cases hstarted : s.started with
    | none =>
        have := h.running hstarted
        rw [hstate] at this
        cases this
    | some started =>
        exact ⟨started, hstarted, hsource hwatched hfile moment hmoment hbefore started hstarted⟩
  · obtain hpending | hcover := hasset hwatched hunder moment hmoment hbefore
    · exact absurd hqueue hpending
    · exact hcover

end

/-! ## Runs -/

/-- Before the worker is started, everything is covered. -/
theorem current_opened (paths : List Path) (files : Path → Observation) :
    Current paths (opened files) :=
  ⟨nofun, fun _ => List.not_mem_nil, fun _ => rfl, fun _ _ _ _ => nofun,
    fun _ _ => ⟨fun _ _ => nofun, fun _ _ => nofun⟩⟩

/-- In every session all of whose edits are noticed, a poll that finds no difference while no
reload is pending leaves a worker that was started after the edits of PHP and Composer files and
windows that were loaded after those of assets. -/
theorem hot_reload_converges (paths : List Path) (files : Path → Observation)
    (events : List Event) (h : (session paths).Throughout Noticed (opened files) events) :
    (session paths).Throughout (Converges paths) (opened files) events := by
  have hcurrent : (session paths).Always (Current paths) (opened files) events :=
    h.always (current_opened paths files) fun s event s' hs hnoticed hnext =>
      hs.next hnoticed hnext
  exact hcurrent.admits fun s event hs => hs.converges event

/-- A project of one PHP file. -/
def notesSource : List Path := [[osString "app.php"]]

/-- The PHP file is saved. -/
def save (nanos : Nat) : Event := .edit [osString "app.php"] (some ⟨40, nanos⟩)

/-- One pass over the project. -/
def scan : List Event := [.look [osString "app.php"], .finish]

/-- The file is saved after the first scan: the worker is restarted before a poll finds no
difference. -/
def calmSession : List Event :=
  [.startWorker, .startWatcher] ++ scan ++ [.openWindows, save 2, .wake] ++ scan ++
    [.reload, .reload, .deliver, .wake] ++ scan

/-- The file is saved while the worker is started, before the first scan. -/
def hastySession : List Event :=
  [.startWorker, save 2, .startWatcher] ++ scan ++ [.openWindows, .wake] ++ scan

theorem calm_session_converges :
    (session notesSource).Throughout (Converges notesSource)
      (opened fun _ => some ⟨30, 1⟩) calmSession := by
  refine hot_reload_converges notesSource _ calmSession ?_
  decide +kernel

/-- A poll finds no difference, and the worker is older than the edit. -/
theorem hasty_session_stale :
    ¬ (session notesSource).Throughout (Converges notesSource)
      (opened fun _ => some ⟨30, 1⟩) hastySession := by
  intro h
  obtain ⟨s, hplay, hstarted, hedits, hqueue, previous, looks, hstate, hcomplete, hkind, hlook⟩ :
      ∃ s, (session notesSource).play (opened fun _ => some ⟨30, 1⟩) hastySession.dropLast =
          some s ∧ s.started = some 0 ∧ s.edits [osString "app.php"] = [1] ∧ s.queue = [] ∧
        ∃ previous looks, s.watcher = .scanning previous looks ∧
          looks.complete notesSource = true ∧
          changedKind notesSource previous.seen looks.snapshot.seen = none ∧
          (looks.snapshot [osString "app.php"]).1 = 7 :=
    ⟨_, rfl, rfl, rfl, rfl, _, _, rfl, rfl, rfl, rfl⟩
  have hconverges : Converges notesSource s .finish :=
    System.Throughout.step (M := session notesSource) h hplay
  obtain ⟨hworker, -⟩ := hconverges previous looks rfl hstate hcomplete hkind hqueue
    [osString "app.php"] List.mem_cons_self rfl 1 (by rw [hedits]; exact List.mem_cons_self)
    (by rw [hlook]; omega)
  obtain ⟨started, hsome, hlt⟩ := hworker rfl
  rw [hstarted] at hsome
  cases hsome
  cases hlt

end PamDesktop.Gateway.HotReload
