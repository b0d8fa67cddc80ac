import Mathlib.Data.List.Sort
import PamDesktop.Foundations.DirectoryTree
import PamDesktop.Foundations.Transition
import PamDesktop.Launcher.HostArchive

/-!
# The cache of hosts

Runs of the Composer launcher over one cache directory. Each call of the file system is one step,
so runs interleave and are killed between any two of them. The operating system gives the order
in which a directory is listed, the times of directories and the random name of a staging
directory. `Admitted` is the condition under which the cache is good for its hosts; read
`admitted_runs_execute` for that.
-/

namespace PamDesktop.Launcher.HostCache

open Foundations DirectoryTree

abbrev Tree := DirectoryTree String (List UInt8)

abbrev Item := TreeItem (List UInt8)

/-! ## Names -/

/-- `HOST_VERSION` of a launcher. -/
abbrev Version := {text : String // matchVersion Char.isDigit text.toList = true}

/-- `bin2hex(random_bytes(8))`. A run is known by it. -/
abbrev Token := {text : String // text.length = 16}

/-- The names of staging directories start with `.download-`. -/
def isStaging (name : String) : Bool :=
  ['.', 'd', 'o', 'w', 'n', 'l', 'o', 'a', 'd', '-'].isPrefixOf name.toList

/-- `$work`. -/
def workName (version : Version) (token : Token) : String :=
  ".download-" ++ version.1 ++ "-" ++ token.1

/-- `(?:[.+-][0-9A-Za-z.-]+)?$`; a line feed may follow. -/
def matchCacheSuffix (text : List Char) : Bool :=
  match if text.getLast? = some '\n' then text.dropLast else text with
  | [] => true
  | c :: rest =>
      (c == '.' || c == '+' || c == '-') && !rest.isEmpty &&
        rest.all fun c => c.isAlphanum || c == '.' || c == '-'

/-- The names that `pruneCache` takes for versions. -/
def isVersion (name : String) : Bool :=
  (((((matchNumber Char.isDigit name.toList).bind matchDot).bind
    (matchNumber Char.isDigit)).bind matchDot).bind (matchNumber Char.isDigit)).any matchCacheSuffix

/-! ## Releases -/

variable {family : Family}

/-- `bin/pam-desktop{$suffix}`. -/
def binary (family : Family) : List String := ["bin", "pam-desktop" ++ suffixOf family]

/-- A release archive, and what it has in the directory of the package, in the order of
extraction. The host is among it. -/
structure Package (family : Family) where
  archive : List UInt8
  checksum : List UInt8
  tar : List UInt8
  items : List (List String × Item)
  creatable : Creatable [] items
  host : ∃ contents, (binary family, .file contents) ∈ items

/-- The releases of all versions for all targets. -/
abbrev Releases (family : Family) := Version → String → Package family

/-- What downloading and extracting create in a staging directory, in order. -/
def stagedItems (name : String) (package : Package family) : List (List String × Item) :=
  ([name ++ ".tar.gz"], .file package.archive) ::
    ([name ++ ".tar.gz.sha256"], .file package.checksum) ::
      ([name ++ ".tar"], .file package.tar) :: ([name], .directory) ::
        package.items.map fun (place, item) => (name :: place, item)

/-! ## Runs -/

/-- How a run ends: with the host directory that it executes the host of, with a download or an
extraction that failed, with a message of `fail`, or with an exception that nothing catches. -/
inductive Outcome where
  | executed (host : List String → Option Item)
  | failed
  | refused (message : String)
  | crashed

/-- Where a run is. -/
inductive Stage where
  | pruning
  | scanning (names : List String) (versions : List (String × Nat))
  | sweeping (stale : List String)
  | looking
  | preparing
  | opening
  | locking (lock : Nat)
  | rechecking
  | staging
  | installing (rest : List (List String × Item))
  | checking
  | making
  | publishing
  | unlocking (published : Bool)
  | unlinking
  | executing
  | leaving (outcome : Outcome)
  | ended (outcome : Outcome)
  | killed

/-- A run: what is left of a `removeTree` that it is in comes before its stage, and `registered`
says that the shutdown function has to remove the staging directory. -/
structure Run where
  token : Token
  version : Version
  target : String
  stage : Stage
  removal : List (Frame String)
  registered : Bool

def Run.work (run : Run) : String := workName run.version run.token

/-- `$package`. -/
def Run.package (run : Run) : String := packageName run.version.1 run.target

/-- `$hostDirectory`. -/
def Run.hostDirectory (run : Run) : List String := [run.version.1, run.target]

/-- What the file system reports to a step: the names in a directory, the times in seconds, and
that the Phar extension is missing or that a download, its checksum or the extraction fails. -/
structure Input where
  listing : List String
  modified : Nat
  time : Nat
  fault : Bool

/-- The cache directory, the lock files in it by version and target, who holds a lock, and the
runs. -/
structure Cache where
  made : Bool
  tree : Tree
  lockFiles : String × String → Option Nat
  locks : Nat
  holder : Nat → Option Token
  runs : List Run

namespace Cache

/-- No run has used the cache. -/
def empty : Cache where
  made := false
  tree := DirectoryTree.empty
  lockFiles _ := none
  locks := 0
  holder _ := none
  runs := []

/-- A run has moved on. -/
def put (s : Cache) (run : Run) : Cache :=
  { s with runs := s.runs.map fun other => if other.token = run.token then run else other }

/-- The locks of a run are free. -/
def release (s : Cache) (token : Token) : Cache :=
  { s with holder := fun lock => if s.holder lock = some token then none else s.holder lock }

end Cache

/-! ## Steps -/

/-- The versions to remove: all but the two latest. -/
def staleVersions (versions : List (String × Nat)) : List String :=
  ((versions.insertionSort fun left right => right.2 ≤ left.2).drop 2).map Prod.fst

/-- A step of the run within `removeTree`. -/
def Run.remove (s : Cache) (run : Run) (input : Input) : Option Cache :=
  match s.tree.removalStep input.listing run.removal with
  | none => none
  | some (some (tree, frames)) => some ({ s with tree := tree }.put { run with removal := frames })
  | some none =>
      match run.stage with
      | .leaving outcome =>
          some ((s.release run.token).put { run with removal := [], stage := .ended outcome })
      | _ => some (s.put { run with removal := [], stage := .leaving .crashed })

/-- A step of the run outside `removeTree`. -/
def Run.proceed (releases : Releases family) (s : Cache) (run : Run) (input : Input) :
    Option Cache :=
  let key := (run.version.1, run.target)
  let hostBinary := run.hostDirectory ++ binary family
  match run.stage with
  | .pruning =>
      if !s.made then some (s.put { run with stage := .looking })
      else if s.tree.Lists [] input.listing then
        some (s.put { run with stage := .scanning input.listing [] })
      else none
  | .scanning [] versions =>
      some (s.put { run with stage := .sweeping (staleVersions versions) })
  | .scanning (name :: names) versions =>
      if !s.tree.isDirectory [name] then
        some (s.put { run with stage := .scanning names versions })
      else if isStaging name ∧ input.modified + 86400 < input.time then
        some (s.put { run with stage := .scanning names versions, removal := [.opening [name]] })
      else if name ≠ run.version.1 ∧ isVersion name then
        some (s.put
          { run with stage := .scanning names (versions ++ [(name, input.modified)]) })
      else some (s.put { run with stage := .scanning names versions })
  | .sweeping [] => some (s.put { run with stage := .looking })
  | .sweeping (name :: names) =>
      if s.tree.isDirectory [name] then
        some (s.put { run with stage := .sweeping names, removal := [.opening [name]] })
      else some (s.put { run with stage := .sweeping names })
  | .looking =>
      some (s.put { run with
        stage := if s.tree.isFile hostBinary then .executing else .preparing })
  | .preparing =>
      if input.fault then some (s.put { run with stage := .leaving .failed })
      else some ({ s with made := true }.put { run with stage := .opening })
  | .opening =>
      match s.lockFiles key with
      | some lock => some (s.put { run with stage := .locking lock })
      | none =>
          some ({ s with
            lockFiles := Function.update s.lockFiles key (some s.locks)
            locks := s.locks + 1 }.put { run with stage := .locking s.locks })
  | .locking lock =>
      match s.holder lock with
      | some _ => none
      | none =>
          some ({ s with holder := Function.update s.holder lock (some run.token) }.put
            { run with stage := .rechecking })
  | .rechecking =>
      some (s.put { run with
        stage := if s.tree.isFile hostBinary then .unlocking false else .staging })
  | .staging =>
      match s.tree.create [] run.work .directory with
      | some tree =>
          some ({ s with tree := tree }.put { run with
            stage := .installing (stagedItems run.package (releases run.version run.target))
            registered := true })
      | none =>
          some (s.put { run with
            stage := .leaving (.refused "cannot create native host staging directory") })
  | .installing [] => some (s.put { run with stage := .checking })
  | .installing ((place, item) :: rest) =>
      if input.fault then some (s.put { run with stage := .leaving .failed })
      else
        let made := place.getLast?.bind fun name =>
          s.tree.create (run.work :: place.dropLast) name item
        match made with
        | some tree => some ({ s with tree := tree }.put { run with stage := .installing rest })
        | none =>
            some (s.put { run with
              stage := .leaving (.refused "cannot extract native host archive") })
  | .checking =>
      some (s.put { run with
        stage :=
          if s.tree.isFile (run.work :: run.package :: binary family) then .making
          else .leaving (.refused "verified archive does not contain the native desktop host") })
  | .making =>
      if s.tree.isDirectory [run.version.1] then some (s.put { run with stage := .publishing })
      else
        match s.tree.create [] run.version.1 .directory with
        | some tree => some ({ s with tree := tree }.put { run with stage := .publishing })
        | none =>
            some (s.put { run with
              stage := .leaving (.refused "cannot create the versioned native host cache") })
  | .publishing =>
      match s.tree.move [run.work, run.package] [run.version.1] run.target with
      | some tree => some ({ s with tree := tree }.put { run with stage := .unlocking true })
      | none =>
          some (s.put { run with
            stage :=
              if s.tree.isFile hostBinary then .unlocking true
              else .leaving (.refused "cannot atomically publish the native desktop host") })
  | .unlocking published =>
      some ((s.release run.token).put { run with
        stage := if published then .unlinking else .executing })
  | .unlinking =>
      some ({ s with lockFiles := Function.update s.lockFiles key none }.put
        { run with stage := .executing })
  | .executing =>
      some (s.put { run with
        stage := .leaving (.executed fun place => s.tree.find (run.hostDirectory ++ place)) })
  | .leaving outcome =>
      if run.registered ∧ s.tree.isDirectory [run.work] then
        some (s.put { run with registered := false, removal := [.opening [run.work]] })
      else some ((s.release run.token).put { run with stage := .ended outcome })
  | .ended _ => none
  | .killed => none

/-- A step of the run. -/
def Run.advance (releases : Releases family) (s : Cache) (run : Run) (input : Input) :
    Option Cache :=
  match run.removal with
  | [] => run.proceed releases s input
  | _ :: _ => run.remove s input

/-- What is seen of a file that a killed run was writing. -/
def Run.torn (s : Cache) (run : Run) (bytes : Option (List UInt8)) : Tree :=
  match run.stage, bytes with
  | .installing ((place, .file _) :: _), some bytes =>
      (place.getLast?.bind fun name =>
        s.tree.create (run.work :: place.dropLast) name (.file bytes)).getD s.tree
  | _, _ => s.tree

/-- The process has not ended. -/
def Stage.live : Stage → Bool
  | .ended _ => false
  | .killed => false
  | _ => true

inductive Event where
  | start (token : Token) (version : Version) (target : String)
  | step (token : Token) (input : Input)
  | kill (token : Token) (bytes : Option (List UInt8))

def Cache.next (releases : Releases family) (s : Cache) : Event → Option Cache
  | .start token version target =>
      if s.runs.any (·.token = token) then none
      else some { s with runs := s.runs ++ [⟨token, version, target, .pruning, [], false⟩] }
  | .step token input =>
      (s.runs.find? (·.token = token)).bind fun run => run.advance releases s input
  | .kill token bytes =>
      (s.runs.find? fun run => run.token = token ∧ run.stage.live).map fun run =>
        ({ s.release token with tree := run.torn s bytes }.put
          { run with stage := .killed, removal := [] })

/-- Launchers over one cache. -/
def launchers (releases : Releases family) : System Cache Event := ⟨Cache.next releases⟩

/-! ## The condition -/

/-- The run is in a removal in this directory of the cache. -/
def Run.Removes (run : Run) (name : String) : Prop :=
  ∃ frame ∈ run.removal, frame.location.head? = some name

instance (run : Run) (name : String) : Decidable (run.Removes name) :=
  inferInstanceAs (Decidable (∃ frame ∈ run.removal, _))

/-- The run has a staging directory that it needs. -/
def Stage.staged : Stage → Bool
  | .installing _ => true
  | .checking => true
  | .making => true
  | .publishing => true
  | _ => false

/-- The run has found the host or the directory to put it in, and has not executed it yet. -/
def Stage.engaged : Stage → Bool
  | .publishing => true
  | .unlocking _ => true
  | .unlinking => true
  | .executing => true
  | _ => false

def Stage.isLeaving : Stage → Bool
  | .leaving _ => true
  | _ => false

/-- The condition on a step of a run. A directory that it removes is still there when it is
listed. It does not remove a staging directory that is in use, nor a version while a run of that
version is about to publish or execute the host. It does not look for the host, nor prepare its
place, while another run is removing its version. -/
def Run.Careful (s : Cache) (run : Run) (input : Input) : Prop :=
  match run.removal with
  | .opening place :: _ => run.stage.isLeaving = true ∨ s.tree.isDirectory place = true
  | _ :: _ => True
  | [] =>
      match run.stage with
      | .scanning (name :: _) _ =>
          isStaging name = true → input.modified + 86400 < input.time →
            ∀ other ∈ s.runs, other.stage.staged = true → other.work ≠ name
      | .sweeping (name :: _) =>
          ∀ other ∈ s.runs, other.stage.engaged = true → other.version.1 ≠ name
      | .looking => ∀ other ∈ s.runs, ¬ other.Removes run.version.1
      | .rechecking => ∀ other ∈ s.runs, ¬ other.Removes run.version.1
      | .making => ∀ other ∈ s.runs, ¬ other.Removes run.version.1
      | _ => True

/-- A run is not killed while it removes a version. -/
def Admitted (s : Cache) : Event → Prop
  | .start _ _ _ => True
  | .step token input => ∀ run ∈ s.runs, run.token = token → run.Careful s input
  | .kill token _ => ∀ run ∈ s.runs, run.token = token →
      ∀ frame ∈ run.removal, frame.location.head?.all isStaging = true

/-! ## Names that differ -/

theorem number_head {digit : Char → Bool} {text : List Char}
    (h : (matchNumber digit text).isSome = true) : ∃ c ∈ text.head?, digit c = true := by
  cases text with
  | nil => cases h
  | cons c rest =>
      cases hdigit : digit c with
      | true => exact ⟨c, rfl, hdigit⟩
      | false =>
          rw [matchNumber, List.takeWhile_cons, hdigit] at h
          cases h

theorem not_staging_of_digit {name : String} (h : ∃ c ∈ name.toList.head?, c.isDigit = true) :
    isStaging name = false := by
  obtain ⟨c, hhead, hdigit⟩ := h
  cases hname : name.toList with
  | nil =>
      rw [hname] at hhead
      cases hhead
  | cons first rest =>
      rw [hname] at hhead
      obtain rfl := Option.some.inj hhead
      rw [isStaging, hname]
      show ('.' == first && _) = false
      rw [Bool.and_eq_false_iff, beq_eq_false_iff_ne]
      left
      rintro rfl
      cases hdigit

theorem version_not_staging (version : Version) : isStaging version.1 = false := by
  obtain ⟨text, h⟩ := version
  refine not_staging_of_digit (number_head ?_)
  rw [matchVersion] at h
  cases hnumber : matchNumber Char.isDigit text.toList with
  | none =>
      rw [hnumber] at h
      cases h
  | some rest => rfl

theorem stale_not_staging {name : String} (h : isVersion name = true) : isStaging name = false := by
  refine not_staging_of_digit (number_head ?_)
  rw [isVersion] at h
  cases hnumber : matchNumber Char.isDigit name.toList with
  | none =>
      rw [hnumber] at h
      cases h
  | some rest => rfl

theorem work_staging (version : Version) (token : Token) :
    isStaging (workName version token) = true := by
  have hstart : ".download-".toList = ['.', 'd', 'o', 'w', 'n', 'l', 'o', 'a', 'd', '-'] := by
    decide
  rw [isStaging, List.isPrefixOf_iff_prefix, workName, String.toList_append, String.toList_append,
    String.toList_append, List.append_assoc, List.append_assoc, hstart]
  exact List.prefix_append _ _

theorem version_ne_work (version version' : Version) (token : Token) :
    version.1 ≠ workName version' token := by
  intro heq
  have hstaging := work_staging version' token
  rw [← heq, version_not_staging] at hstaging
  cases hstaging

/-- A name is used by one run at most. -/
theorem work_token {version version' : Version} {token token' : Token}
    (h : workName version token = workName version' token') : token = token' := by
  have htext := congrArg String.toList h
  rw [workName, workName, String.toList_append, String.toList_append (s := _ ++ "-")] at htext
  have hlength : token.1.toList.length = token'.1.toList.length := by
    rw [String.length_toList, String.length_toList, token.2, token'.2]
  exact Subtype.ext (String.toList_injective (List.append_inj' htext hlength).2)

/-! ## Staging directories -/

/-- What has been created below a directory of its own. -/
theorem creatable_below {name : String} {done items base : List (List String × Item)}
    (h : Creatable done items) (hname : ([name], TreeItem.directory) ∈ base)
    (hbase : ∀ old ∈ base, ∀ place, place ≠ [] → old.1 ≠ name :: place) :
    Creatable ((done.map fun entry => (name :: entry.1, entry.2)) ++ base)
      (items.map fun entry => (name :: entry.1, entry.2)) := by
  induction items generalizing done with
  | nil => trivial
  | cons entry rest ih =>
      obtain ⟨place, item⟩ := entry
      obtain ⟨hne, hplace, hnew, hrest⟩ := h
      refine ⟨List.cons_ne_nil _ _, .inr ?_, fun old hold => ?_, ih hrest⟩
      · rw [List.dropLast_cons_of_ne_nil hne]
        rcases hplace with hnil | hmem
        · rw [hnil]
          exact List.mem_append_right _ hname
        · exact List.mem_append_left _ (List.mem_map_of_mem hmem)
      · rcases List.mem_append.mp hold with hmem | hmem
        · obtain ⟨inner, hinner, rfl⟩ := List.mem_map.mp hmem
          exact fun heq => hnew inner hinner (List.cons_eq_cons.mp heq).2
        · exact hbase old hmem place hne

variable {releases : Releases family}

theorem staged_creatable (name : String) (package : Package family) :
    Creatable [] (stagedItems name package) := by
  have hne : ∀ left right : String, left ≠ right → name ++ left ≠ name ++ right :=
    fun left right hdiffer heq => hdiffer ((String.append_right_inj name).mp heq)
  have hself : ∀ right : String, right ≠ "" → name ++ right ≠ name := fun right hright heq =>
    hright ((String.append_right_inj name).mp (heq.trans (String.append_empty).symm))
  have hplain : ∀ {left right : String}, left ≠ right → [left] ≠ [right] :=
    fun hdiffer heq => hdiffer (List.cons_eq_cons.mp heq).1
  refine ⟨List.cons_ne_nil _ _, .inl rfl, fun _ hold => absurd hold List.not_mem_nil, ?_⟩
  refine ⟨List.cons_ne_nil _ _, .inl rfl, fun old hold => ?_, ?_⟩
  · rw [List.mem_singleton.mp hold]
    exact hplain (hne _ _ (by decide))
  refine ⟨List.cons_ne_nil _ _, .inl rfl, fun old hold => ?_, ?_⟩
  · rcases List.mem_cons.mp hold with rfl | hold
    · exact hplain (hne _ _ (by decide))
    · rw [List.mem_singleton.mp hold]
      exact hplain (hne _ _ (by decide))
  refine ⟨List.cons_ne_nil _ _, .inl rfl, fun old hold => ?_, ?_⟩
  · rcases List.mem_cons.mp hold with rfl | hold
    · exact hplain (hself _ (by decide))
    · rcases List.mem_cons.mp hold with rfl | hold
      · exact hplain (hself _ (by decide))
      · rw [List.mem_singleton.mp hold]
        exact hplain (hself _ (by decide))
  · refine creatable_below package.creatable List.mem_cons_self fun old hold place hplace => ?_
    have hone : old.1.length = 1 := by
      simp only [List.mem_cons, List.not_mem_nil, or_false] at hold
      rcases hold with rfl | rfl | rfl | rfl <;> rfl
    intro heq
    rw [heq, List.length_cons, Nat.succ_inj, List.length_eq_zero_iff] at hone
    exact hplace hone

end PamDesktop.Launcher.HostCache
