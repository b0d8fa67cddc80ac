import PamDesktop.Foundations.LossyText
import PamDesktop.Foundations.Mounts
import PamDesktop.Shell.Project

/-!
# The sandbox of a plugin

`strict_plugin_command` gives bubblewrap the mounts of a plugin as arguments, one after the other.
`sandbox_exposes` says what of the host the plugin can then read and what it can change.
-/

namespace PamDesktop.Worker

open Foundations Protocol Shell

/-! ## The command -/

/-- A command that is to be started. -/
structure Command where
  program : Location
  arguments : List OsString
  directory : Location

/-- `to_string_lossy` of an absolute path. -/
def lossyPath (place : Location) : OsString := osString (displayed place)

/-- An absolute path of text names. -/
def absolute (names : List String) : Location := names.map osString

/-- `exists`, which follows links. -/
def pathExists (disk : Disk) (place : Location) : Bool := (disk.canonicalize [] place).isOk

/-- `is_file`, which follows links. -/
def pathIsFile (disk : Disk) (place : Location) : Bool :=
  match disk.canonicalize [] place with
  | .ok resolved => Disk.isFile (disk.find resolved)
  | .error _ => false

/-- `append_parent_directories`: the ancestors without the root, from the highest down. -/
def appendParentDirectories (path : Location) : List OsString :=
  (path.inits.dropLast.filter fun parent => parent ≠ []).flatMap fun parent =>
    [osString "--dir", lossyPath parent]

/-- A bind of a place to itself. -/
def bindArguments (option : String) (place : Location) : List OsString :=
  [osString option, lossyPath place, lossyPath place]

/-- The system directories that every plugin may read. -/
def systemRoots : List Location :=
  [absolute ["usr", "lib"], absolute ["usr", "lib64"], absolute ["lib"], absolute ["lib64"]]

/-- The system directories of a plugin that may start programs. -/
def shellRoots : List Location := [absolute ["usr", "bin"], absolute ["bin"]]

/-- The loop over `permissions.filesystem_roots`. -/
def grantedRoots (build : Build) (disk : Disk) (canonicalRoot : Location) :
    List String → Except String (List Location)
  | [] => .ok []
  | relative :: rest =>
      match resolvePath build disk canonicalRoot relative with
      | .error error => .error ("cannot resolve strict plugin filesystem root " ++
          debugText relative ++ ": " ++ error.text)
      | .ok root =>
          if canonicalRoot.isPrefixOf root then do
            let roots ← grantedRoots build disk canonicalRoot rest
            .ok (root :: roots)
          else .error ("strict plugin filesystem root " ++ debugText relative ++
            " escapes the project")

/-- The arguments before the command of the plugin. -/
def sandboxArguments (disk : Disk) (canonicalRoot canonicalExecutable : Location)
    (granted : List Location) (permissions : PluginPermissions) : List OsString :=
  (["--die-with-parent", "--new-session", "--unshare-all", "--proc", "/proc", "--dev", "/dev",
      "--tmpfs", "/tmp"].map osString) ++
    (if permissions.network then [osString "--share-net"] else []) ++
    (systemRoots.filter (pathExists disk)).flatMap (bindArguments "--ro-bind") ++
    appendParentDirectories canonicalRoot ++ [osString "--dir", lossyPath canonicalRoot] ++
    appendParentDirectories canonicalExecutable ++
    bindArguments "--ro-bind" canonicalExecutable ++
    (granted.flatMap fun root => appendParentDirectories root ++ bindArguments "--bind" root) ++
    (if permissions.devices then ["--dev-bind", "/dev", "/dev"].map osString else []) ++
    (if permissions.shell then
      (shellRoots.filter (pathExists disk)).flatMap (bindArguments "--ro-bind") else []) ++
    [osString "--chdir", lossyPath canonicalRoot, osString "--"]

/-- `strict_plugin_command` on Linux. -/
def strictPluginCommand (build : Build) (disk : Disk) (projectRoot executable : Location)
    (plugin : RustPluginConfig) : Except String Command := do
  match [absolute ["usr", "bin", "bwrap"], absolute ["bin", "bwrap"]].find? (pathIsFile disk) with
  | none => .error ("Rust plugin " ++ debugText plugin.id ++
      " requires strict sandboxing, but bubblewrap is unavailable")
  | some bubblewrap =>
      match disk.canonicalize [] projectRoot with
      | .error error => .error ("cannot resolve plugin project root: " ++ error.text)
      | .ok canonicalRoot =>
          match disk.canonicalize [] executable with
          | .error error => .error ("cannot resolve plugin executable: " ++ error.text)
          | .ok canonicalExecutable => do
              let granted ← grantedRoots build disk canonicalRoot
                plugin.permissions.filesystemRoots
              .ok ⟨bubblewrap, sandboxArguments disk canonicalRoot canonicalExecutable granted
                plugin.permissions ++ (47 :: joinNames 47 canonicalExecutable) ::
                  plugin.arguments.map osString, canonicalRoot⟩

/-- `plugin_command`. -/
def pluginCommand (build : Build) (disk : Disk) (projectRoot executable : Location)
    (plugin : RustPluginConfig) : Except String Command :=
  if plugin.sandbox = .inherited then
    .ok ⟨executable, plugin.arguments.map osString, projectRoot⟩
  else strictPluginCommand build disk projectRoot executable plugin

/-! ## What bubblewrap makes of it -/

/-- What the arguments ask for: the mounts in their order, the network of the host, and the command
that is started. -/
structure Sandbox where
  mounts : List (Mount OsString)
  network : Bool
  command : List OsString

/-- The names of an absolute path. -/
def pathNames (path : OsString) : Location := (path.splitOn 47).filter fun name => name ≠ []

def Sandbox.mount (mount : Mount OsString) (sandbox : Sandbox) : Sandbox :=
  { sandbox with mounts := mount :: sandbox.mounts }

/-- The options of bubblewrap that the command uses. A bind fails where its source does not
exist. -/
def readArguments (disk : Disk) : List OsString → Option Sandbox
  | [] => none
  | option :: rest =>
      if option = osString "--" then some ⟨[], false, rest⟩
      else if option = osString "--die-with-parent" ∨ option = osString "--new-session" ∨
          option = osString "--unshare-all" then readArguments disk rest
      else if option = osString "--share-net" then
        (readArguments disk rest).map fun sandbox => { sandbox with network := true }
      else
        match rest with
        | [] => none
        | path :: rest =>
            if option = osString "--dir" ∨ option = osString "--chdir" then readArguments disk rest
            else if option = osString "--proc" ∨ option = osString "--dev" ∨
                option = osString "--tmpfs" then
              (readArguments disk rest).map (Sandbox.mount (.own (pathNames path)))
            else
              match rest with
              | [] => none
              | inner :: rest =>
                  let bind (writable : Bool) : Option Sandbox :=
                    match disk.canonicalize [] (pathNames path) with
                    | .error _ => none
                    | .ok source => (readArguments disk rest).map
                        (Sandbox.mount (.bind (pathNames inner) source writable))
                  if option = osString "--ro-bind" then bind false
                  else if option = osString "--bind" ∨ option = osString "--dev-bind" then bind true
                  else none

/-! ## Reading the arguments -/

/-- Arguments that only add mounts. -/
def Adds (disk : Disk) (arguments : List OsString) (mounts : List (Mount OsString)) : Prop :=
  ∀ rest, readArguments disk (arguments ++ rest) =
    (readArguments disk rest).map fun sandbox => { sandbox with mounts := mounts ++ sandbox.mounts }

variable {disk : Disk}

theorem Adds.nil : Adds disk [] [] := fun rest => by
  show readArguments disk rest = _
  simp

theorem Adds.append {first second : List OsString} {mounts others : List (Mount OsString)}
    (h : Adds disk first mounts) (h' : Adds disk second others) :
    Adds disk (first ++ second) (mounts ++ others) := fun rest => by
  rw [List.append_assoc, h, h', Option.map_map]
  simp [Function.comp_def]

theorem Adds.flatMap {α : Type} {arguments : α → List OsString} {mounts : α → List (Mount OsString)}
    {items : List α} (h : ∀ item ∈ items, Adds disk (arguments item) (mounts item)) :
    Adds disk (items.flatMap arguments) (items.flatMap mounts) := by
  induction items with
  | nil => exact .nil
  | cons item rest ih =>
      exact (h item List.mem_cons_self).append
        (ih fun other hother => h other (List.mem_cons_of_mem item hother))

theorem os_string_inj {first second : String} : osString first = osString second ↔ first = second :=
  ⟨os_string_injective, fun h => h ▸ rfl⟩

theorem adds_flag {option : String}
    (h : option = "--die-with-parent" ∨ option = "--new-session" ∨ option = "--unshare-all") :
    Adds disk [osString option] [] := fun rest => by
  rw [List.singleton_append, readArguments.eq_def]
  obtain rfl | rfl | rfl := h <;> simp [os_string_inj]

theorem adds_directory (path : OsString) : Adds disk [osString "--dir", path] [] := fun rest => by
  rw [List.cons_append, readArguments.eq_def]
  simp [os_string_inj]

theorem adds_own {option : String} (h : option = "--proc" ∨ option = "--dev" ∨ option = "--tmpfs")
    (path : OsString) : Adds disk [osString option, path] [.own (pathNames path)] := fun rest => by
  rw [List.cons_append, readArguments.eq_def]
  obtain rfl | rfl | rfl := h
  all_goals
    simp only [os_string_inj]
    rfl

theorem adds_bind {option : String} {path inner : OsString} {source : Location}
    (h : option = "--ro-bind" ∨ option = "--bind" ∨ option = "--dev-bind")
    (hsource : disk.canonicalize [] (pathNames path) = .ok source) :
    Adds disk [osString option, path, inner]
      [.bind (pathNames inner) source (option != "--ro-bind")] := fun rest => by
  rw [List.cons_append, readArguments.eq_def]
  obtain rfl | rfl | rfl := h
  all_goals
    simp [os_string_inj, hsource]
    rfl

/-! ## Places and their paths -/

/-- A place whose names are texts. -/
def Spelled (place : Location) : Prop :=
  ∀ name ∈ place, ∃ text : String, name = osString text ∧ name ≠ [] ∧ 47 ∉ name

theorem path_names_joined {place : Location} (h : ∀ name ∈ place, name ≠ [] ∧ 47 ∉ name) :
    pathNames (47 :: joinNames 47 place) = place := by
  unfold pathNames
  rw [List.splitOn_cons_eq_if_modifyHead, if_pos (beq_self_eq_true 47)]
  cases place with
  | nil => rfl
  | cons first rest =>
      have hsplit : (joinNames 47 (first :: rest)).splitOn 47 = first :: rest := by
        refine split_join_names (by decide) (by simp) fun name hname byte hbyte => ?_
        rw [beq_eq_false_iff_ne]
        rintro rfl
        exact (h name hname).2 hbyte
      rw [hsplit, List.filter_cons_of_neg (by simp), List.filter_eq_self]
      intro name hname
      exact decide_eq_true (h name hname).1

/-- The path of a place, printed and read. -/
theorem path_names_lossy {place : Location} (h : Spelled place) :
    pathNames (lossyPath place) = place := by
  have hlossy : lossyPath place = 47 :: joinNames 47 place := by
    have htexts : osString ("/".intercalate (place.map toStringLossy)) = joinNames 47 place := by
      induction place with
      | nil => rfl
      | cons first rest ih =>
          obtain ⟨text, rfl, -⟩ := h first List.mem_cons_self
          have hrest := ih fun name hname => h name (List.mem_cons_of_mem _ hname)
          cases rest with
          | nil =>
              rw [List.map_singleton, String.intercalate_singleton, to_string_lossy_os_string,
                joinNames, List.intercalate_singleton]
          | cons second rest =>
              rw [List.map_cons, List.map_cons, String.intercalate_cons_cons,
                to_string_lossy_os_string, join_names_cons, ← hrest, os_string_append,
                os_string_append, List.append_assoc]
              rfl
    show osString ("/" ++ _) = _
    rw [os_string_append, htexts]
    rfl
  rw [hlossy, path_names_joined]
  intro name hname
  obtain ⟨text, -, hvalid⟩ := h name hname
  exact hvalid

/-- The links of a tree on the disk lead to what is no link. -/
def LinksIn (disk tree : Disk) : Prop := ∀ place target,
  tree.find place = some (.symlink (.ok target)) →
    ∃ node, disk.find target = some node ∧ ∀ target', node ≠ .symlink target'

/-- Links lead to what is no link. -/
def LinksLead (disk : Disk) : Prop := LinksIn disk disk

/-- Where a path leads, nothing is left to follow. -/
theorem canonicalize_again (hlinks : LinksLead disk) {place resolved : Location}
    {names : List OsString} (hplace : ∃ node, disk.find place = some node ∧
      ∀ target, node ≠ .symlink target)
    (h : disk.canonicalize place names = .ok resolved) :
    ∃ node, disk.find resolved = some node ∧ ∀ target, node ≠ .symlink target := by
  induction names generalizing place with
  | nil =>
      cases h
      exact hplace
  | cons name rest ih =>
      obtain ⟨next, hnext, hrest⟩ := Disk.canonicalize_cons_ok h
      refine ih ?_ hrest
      unfold Disk.follow at hnext
      split at hnext
      · rename_i target hfind
        subst hnext
        exact hlinks _ _ hfind
      · rename_i node hnode hfind
        cases hnext
        exact ⟨node, hfind, fun target heq => hnode target heq⟩
      · cases hnext

/-- A place without links on the way leads to itself. -/
def Unlinked (disk : Disk) (place : Location) : Prop := disk.canonicalize [] place = .ok place

theorem canonicalize_unlinked (hlinks : LinksLead disk) {names resolved : Location}
    (h : disk.canonicalize [] names = .ok resolved) : Unlinked disk resolved := by
  cases names with
  | nil =>
      cases h
      rfl
  | cons name rest =>
      have hroot : ∃ node, disk.find [] = some node ∧ ∀ target, node ≠ .symlink target := by
        obtain ⟨next, hnext, -⟩ := Disk.canonicalize_cons_ok h
        have hfound : disk.find [name] ≠ none := fun hnone =>
          Disk.follow_missing (show disk.find ([] ++ [name]) = none from hnone) hnext
        obtain ⟨entries, rfl⟩ := Disk.find_below hfound
        exact ⟨_, rfl, fun target heq => nomatch heq⟩
      obtain ⟨node, hfind, hnode⟩ := canonicalize_again hlinks hroot h
      exact Disk.canonicalize_found (show disk.find ([] ++ resolved) = some node from hfind) hnode

/-! ## The mounts of the command -/

theorem adds_parents (path : Location) : Adds disk (appendParentDirectories path) [] := by
  have hparents : Adds disk (appendParentDirectories path)
      ((path.inits.dropLast.filter fun parent => parent ≠ []).flatMap fun _ => []) :=
    .flatMap fun parent _ => adds_directory (lossyPath parent)
  rwa [List.flatMap_eq_nil_iff.mpr fun _ _ => rfl] at hparents

/-- A bind of a place to itself. -/
theorem adds_bind_same {option : String} {place source : Location}
    (h : option = "--ro-bind" ∨ option = "--bind") (hspelled : Spelled place)
    (hsource : disk.canonicalize [] place = .ok source) :
    Adds disk (bindArguments option place) [.bind place source (option != "--ro-bind")] := by
  have hnames := path_names_lossy hspelled
  have hbind : Adds disk (bindArguments option place)
      [.bind (pathNames (lossyPath place)) source (option != "--ro-bind")] :=
    adds_bind (by tauto) (by rwa [hnames])
  rwa [hnames] at hbind

/-- The binds of directories of the system: what they lead to, at their own places. -/
def systemBinds (disk : Disk) (places : List Location) : List (Mount OsString) :=
  places.flatMap fun place =>
    match disk.canonicalize [] place with
    | .ok source => [.bind place source false]
    | .error _ => []

theorem adds_system {places : List Location} (hspelled : ∀ place ∈ places, Spelled place) :
    Adds disk ((places.filter (pathExists disk)).flatMap (bindArguments "--ro-bind"))
      (systemBinds disk places) := by
  induction places with
  | nil => exact .nil
  | cons place rest ih =>
      have hrest := ih fun other hother => hspelled other (List.mem_cons_of_mem place hother)
      rw [List.filter_cons]
      unfold systemBinds pathExists
      rw [List.flatMap_cons]
      cases hplace : disk.canonicalize [] place with
      | error error => exact hrest
      | ok source =>
          exact (adds_bind_same (.inl rfl) (hspelled place List.mem_cons_self) hplace).append hrest

theorem spelled_absolute {names : List String}
    (h : ∀ name ∈ names.map osString, name ≠ [] ∧ 47 ∉ name) : Spelled (absolute names) := by
  intro name hname
  obtain ⟨text, -, htext⟩ := List.mem_map.mp hname
  exact ⟨text, htext.symm, h name hname⟩

theorem spelled_system {place : Location} (h : place ∈ systemRoots ++ shellRoots) :
    Spelled place := by
  simp only [systemRoots, shellRoots, List.cons_append, List.nil_append, List.mem_cons,
    List.not_mem_nil, or_false] at h
  obtain rfl | rfl | rfl | rfl | rfl | rfl := h <;> exact spelled_absolute (by decide)

/-- What the arguments of a plugin mount, in their order. -/
def pluginMounts (disk : Disk) (canonicalExecutable : Location) (granted : List Location)
    (permissions : PluginPermissions) : List (Mount OsString) :=
  [.own (absolute ["proc"]), .own (absolute ["dev"]), .own (absolute ["tmp"])] ++
    systemBinds disk systemRoots ++ Mount.binds false [canonicalExecutable] ++
    Mount.binds true granted ++
    (if permissions.devices then
      match disk.canonicalize [] (absolute ["dev"]) with
      | .ok devices => [.bind (absolute ["dev"]) devices true]
      | .error _ => []
    else []) ++
    (if permissions.shell then systemBinds disk shellRoots else [])

/-- The roots are below the project, and no link is left on the way to them. -/
theorem granted_roots_ok (hlinks : LinksLead disk) {build : Build} {canonicalRoot : Location}
    (hroot : Unlinked disk canonicalRoot) {relatives : List String} {granted : List Location}
    (h : grantedRoots build disk canonicalRoot relatives = .ok granted) :
    List.Forall₂ (fun relative root => resolvePath build disk canonicalRoot relative = .ok root)
        relatives granted ∧
      ∀ root ∈ granted, canonicalRoot <+: root ∧ Unlinked disk root := by
  induction relatives generalizing granted with
  | nil =>
      cases h
      exact ⟨.nil, fun root hmem => nomatch hmem⟩
  | cons relative rest ih =>
      rw [grantedRoots] at h
      cases hresolved : resolvePath build disk canonicalRoot relative with
      | error error => simp [hresolved] at h
      | ok root =>
          simp only [hresolved] at h
          split at h
          case isFalse => cases h
          rename_i hinside
          cases hrest : grantedRoots build disk canonicalRoot rest with
          | error error => rw [hrest] at h; cases h
          | ok roots =>
              rw [hrest] at h
              cases h
              obtain ⟨hrelatives, hroots⟩ := ih hrest
              refine ⟨.cons hresolved hrelatives, ?_⟩
              rintro place (_ | ⟨_, hmem⟩)
              · refine ⟨List.isPrefixOf_iff_prefix.mp hinside, ?_⟩
                have hpath : disk.canonicalize []
                    (canonicalRoot ++ (projectComponents build relative).getD []) = .ok root := by
                  rw [Disk.canonicalize_append, hroot]
                  exact ((resolve_path_ok rfl).mp hresolved).1
                exact canonicalize_unlinked hlinks hpath
              · exact hroots place hmem

theorem adds_granted {granted : List Location}
    (h : ∀ root ∈ granted, Spelled root ∧ Unlinked disk root) :
    Adds disk (granted.flatMap fun root =>
      appendParentDirectories root ++ bindArguments "--bind" root) (Mount.binds true granted) := by
  unfold Mount.binds
  rw [List.map_eq_flatMap]
  exact .flatMap fun root hmem => (adds_parents root).append
    (adds_bind_same (.inr rfl) (h root hmem).1 (h root hmem).2)

/-- The file systems of the sandbox itself. -/
theorem adds_flags : Adds disk (["--die-with-parent", "--new-session", "--unshare-all", "--proc",
      "/proc", "--dev", "/dev", "--tmpfs", "/tmp"].map osString)
    [.own (absolute ["proc"]), .own (absolute ["dev"]), .own (absolute ["tmp"])] := by
  have hproc : pathNames (osString "/proc") = absolute ["proc"] := by decide
  have hdev : pathNames (osString "/dev") = absolute ["dev"] := by decide
  have htmp : pathNames (osString "/tmp") = absolute ["tmp"] := by decide
  rw [← hproc, ← hdev, ← htmp]
  exact (adds_flag (.inl rfl)).append <| (adds_flag (.inr (.inl rfl))).append <|
    (adds_flag (.inr (.inr rfl))).append <| (adds_own (.inl rfl) _).append <|
    (adds_own (.inr (.inl rfl)) _).append (adds_own (.inr (.inr rfl)) _)

theorem adds_devices {devices : Location}
    (h : disk.canonicalize [] (absolute ["dev"]) = .ok devices) :
    Adds disk (["--dev-bind", "/dev", "/dev"].map osString)
      [.bind (absolute ["dev"]) devices true] := by
  have hnames : pathNames (osString "/dev") = absolute ["dev"] := by decide
  have hbind : Adds disk (["--dev-bind", "/dev", "/dev"].map osString)
      [.bind (pathNames (osString "/dev")) devices ("--dev-bind" != "--ro-bind")] :=
    adds_bind (.inr (.inr rfl)) (by rwa [hnames])
  rwa [hnames] at hbind

theorem read_network (network : Bool) (rest : List OsString) :
    readArguments disk ((if network then [osString "--share-net"] else []) ++ rest) =
      (readArguments disk rest).map fun sandbox =>
        { sandbox with network := network || sandbox.network } := by
  cases network with
  | false => simp
  | true =>
      rw [if_pos rfl, List.singleton_append, readArguments.eq_def]
      simp [os_string_inj]

theorem read_end (path : OsString) (command : List OsString) :
    readArguments disk ([osString "--chdir", path, osString "--"] ++ command) =
      some ⟨[], false, command⟩ := by
  show readArguments disk (osString "--chdir" :: path :: osString "--" :: command) = _
  rw [readArguments.eq_def]
  simp only [os_string_inj]
  show readArguments disk (osString "--" :: command) = _
  rw [readArguments.eq_def]
  simp

/-- Everything before the command. -/
theorem read_sandbox_arguments {canonicalRoot canonicalExecutable : Location}
    {granted : List Location} {permissions : PluginPermissions}
    (hexecutable : Spelled canonicalExecutable ∧ Unlinked disk canonicalExecutable)
    (hgranted : ∀ root ∈ granted, Spelled root ∧ Unlinked disk root)
    (hdevices : permissions.devices = true → ∃ devices,
      disk.canonicalize [] (absolute ["dev"]) = .ok devices) (command : List OsString) :
    readArguments disk
        (sandboxArguments disk canonicalRoot canonicalExecutable granted permissions ++ command) =
      some ⟨pluginMounts disk canonicalExecutable granted permissions, permissions.network,
        command⟩ := by
  have hsystem : Adds disk ((systemRoots.filter (pathExists disk)).flatMap
      (bindArguments "--ro-bind")) (systemBinds disk systemRoots) :=
    adds_system fun place hmem => spelled_system (List.mem_append_left _ hmem)
  have hroot : Adds disk (appendParentDirectories canonicalRoot ++
      [osString "--dir", lossyPath canonicalRoot]) [] :=
    (adds_parents canonicalRoot).append (adds_directory _)
  have hbind : Adds disk (appendParentDirectories canonicalExecutable ++
      bindArguments "--ro-bind" canonicalExecutable) (Mount.binds false [canonicalExecutable]) :=
    (adds_parents canonicalExecutable).append
      (adds_bind_same (.inl rfl) hexecutable.1 hexecutable.2)
  have hdevice : Adds disk
      (if permissions.devices then ["--dev-bind", "/dev", "/dev"].map osString else [])
      (if permissions.devices then
        match disk.canonicalize [] (absolute ["dev"]) with
        | .ok devices => [.bind (absolute ["dev"]) devices true]
        | .error _ => []
      else []) := by
    split
    · rename_i hallowed
      obtain ⟨devices, hfound⟩ := hdevices hallowed
      rw [hfound]
      exact adds_devices hfound
    · exact .nil
  have hshell : Adds disk
      (if permissions.shell then
        (shellRoots.filter (pathExists disk)).flatMap (bindArguments "--ro-bind") else [])
      (if permissions.shell then systemBinds disk shellRoots else []) := by
    split
    · exact adds_system fun place hmem => spelled_system (List.mem_append_right _ hmem)
    · exact .nil
  have hmounts := (((hsystem.append hroot).append hbind).append
    (adds_granted hgranted)).append (hdevice.append hshell)
  have hread := hmounts ([osString "--chdir", lossyPath canonicalRoot, osString "--"] ++ command)
  rw [read_end] at hread
  unfold sandboxArguments
  simp only [List.append_assoc] at hread ⊢
  rw [adds_flags, read_network, hread]
  simp [pluginMounts]

/-! ## What the plugin reaches -/

/-- A place is below one of some directories of the system, and what it is on the host. -/
def Leads (disk : Disk) (places : List Location) (inner outer : Location) : Prop :=
  ∃ place ∈ places, place <+: inner ∧ ∃ source, disk.canonicalize [] place = .ok source ∧
    outer = source ++ inner.drop place.length

theorem covers_system {places : List Location} {inner : Location} :
    Mount.Covers (systemBinds disk places) inner ↔ ∃ outer, Leads disk places inner outer := by
  constructor
  · rintro ⟨mount, hmem, hcovers⟩
    obtain ⟨place, hplace, hmount⟩ := List.mem_flatMap.mp hmem
    split at hmount
    · rename_i source hsource
      obtain rfl := List.mem_singleton.mp hmount
      exact ⟨_, place, hplace, hcovers, source, hsource, rfl⟩
    · cases hmount
  · rintro ⟨outer, place, hplace, hcovers, source, hsource, -⟩
    refine ⟨.bind place source false, List.mem_flatMap.mpr ⟨place, hplace, ?_⟩, hcovers⟩
    rw [hsource]
    exact List.mem_singleton_self _

theorem leads_cons {place inner outer : Location} {places : List Location} :
    Leads disk (place :: places) inner outer ↔
      Leads disk [place] inner outer ∨ Leads disk places inner outer := by
  simp [Leads]

theorem leads_single {place inner outer : Location} :
    Leads disk [place] inner outer ↔ place <+: inner ∧
      ∃ source, disk.canonicalize [] place = .ok source ∧
        outer = source ++ inner.drop place.length := by
  simp [Leads]

/-- Of directories none of which is in another, one at most is above a place. -/
theorem behind_system {places : List Location}
    (hapart : places.Pairwise fun first second => ¬ first <+: second ∧ ¬ second <+: first)
    {inner outer : Location} {writable : Bool} :
    Mount.behind (systemBinds disk places) inner = some (outer, writable) ↔
      writable = false ∧ Leads disk places inner outer := by
  induction places with
  | nil => simp [systemBinds, Mount.behind, Leads]
  | cons place rest ih =>
      obtain ⟨hplace, hrest⟩ := List.pairwise_cons.mp hapart
      have hother : ∀ other, Leads disk rest inner other → ¬ place <+: inner := by
        rintro other ⟨second, hmem, hsecond, -⟩ hprefix
        obtain hinside | hinside := List.prefix_or_prefix_of_prefix hprefix hsecond
        · exact (hplace second hmem).1 hinside
        · exact (hplace second hmem).2 hinside
      rw [leads_cons, leads_single]
      cases hsource : disk.canonicalize [] place with
      | error error =>
          have hsame : systemBinds disk (place :: rest) = systemBinds disk rest := by
            simp [systemBinds, hsource]
          rw [hsame, ih hrest]
          simp
      | ok source =>
          have hfirst : systemBinds disk (place :: rest) =
              .bind place source false :: systemBinds disk rest := by
            simp [systemBinds, hsource]
          rw [hfirst, Mount.behind]
          by_cases hcovers : Mount.Covers (systemBinds disk rest) inner
          · obtain ⟨other, hleads⟩ := covers_system.mp hcovers
            rw [if_pos hcovers, ih hrest]
            simp [hother other hleads]
          · have hnone : ¬ Leads disk rest inner outer := fun hleads =>
              hcovers (covers_system.mpr ⟨outer, hleads⟩)
            rw [if_neg hcovers]
            by_cases hprefix : place <+: inner
            · simp [Mount.place, Mount.shows, hprefix, hnone, eq_comm, and_comm]
            · simp [Mount.place, hprefix, hnone]

theorem behind_own {places : List Location} {inner : Location} :
    Mount.behind (places.map Mount.own) inner = none := by
  refine Option.eq_none_iff_forall_ne_some.mpr fun ⟨outer, writable⟩ h => ?_
  obtain ⟨mount, hmem, -, hshows⟩ := Mount.behind_some h
  obtain ⟨place, -, rfl⟩ := List.mem_map.mp hmem
  cases hshows

/-- What the plugin can change: what is below a granted root and, with the permission, devices. The
directories of programs are read-only also there. -/
def MayWrite (disk : Disk) (granted : List Location) (permissions : PluginPermissions)
    (inner outer : Location) : Prop :=
  ¬ (permissions.shell = true ∧ ∃ other, Leads disk shellRoots inner other) ∧
    if permissions.devices = true ∧ absolute ["dev"] <+: inner then
      Leads disk [absolute ["dev"]] inner outer
    else outer = inner ∧ ∃ root ∈ granted, root <+: inner

/-- What the plugin can only read. -/
def MayOnlyRead (disk : Disk) (canonicalExecutable : Location) (granted : List Location)
    (permissions : PluginPermissions) (inner outer : Location) : Prop :=
  permissions.shell = true ∧ Leads disk shellRoots inner outer ∨
    ¬ (permissions.shell = true ∧ ∃ other, Leads disk shellRoots inner other) ∧
      ¬ (permissions.devices = true ∧ absolute ["dev"] <+: inner) ∧
      (∀ root ∈ granted, ¬ root <+: inner) ∧
      if canonicalExecutable <+: inner then outer = inner else Leads disk systemRoots inner outer

theorem covers_if {allowed : Prop} [Decidable allowed] {mounts : List (Mount OsString)}
    {inner : Location} :
    Mount.Covers (if allowed then mounts else []) inner ↔ allowed ∧ Mount.Covers mounts inner := by
  split <;> simp_all [Mount.Covers]

theorem roots_apart :
    systemRoots.Pairwise (fun first second => ¬ first <+: second ∧ ¬ second <+: first) ∧
      shellRoots.Pairwise (fun first second => ¬ first <+: second ∧ ¬ second <+: first) := by
  decide

theorem and_reversed (p q r s : Prop) : (p ∧ q ∧ r) ∧ s ↔ r ∧ q ∧ p ∧ s := by
  tauto

/-- The last mount that is above a place decides, so what is granted hides the binary of the plugin
and the system below it, and is hidden by devices and programs. -/
theorem behind_plugin_mounts {canonicalExecutable : Location} {granted : List Location}
    {permissions : PluginPermissions} {devices : Location}
    (hdevices : permissions.devices = true →
      disk.canonicalize [] (absolute ["dev"]) = .ok devices) {inner outer : Location}
    {writable : Bool} :
    Mount.behind (pluginMounts disk canonicalExecutable granted permissions) inner =
        some (outer, writable) ↔
      if writable then MayWrite disk granted permissions inner outer
      else MayOnlyRead disk canonicalExecutable granted permissions inner outer := by
  have hmounts : pluginMounts disk canonicalExecutable granted permissions =
      [absolute ["proc"], absolute ["dev"], absolute ["tmp"]].map Mount.own ++
        (systemBinds disk systemRoots ++ (Mount.binds false [canonicalExecutable] ++
          (Mount.binds true granted ++
            ((if permissions.devices then [.bind (absolute ["dev"]) devices true] else []) ++
              (if permissions.shell then systemBinds disk shellRoots else []))))) := by
    unfold pluginMounts
    cases hallowed : permissions.devices with
    | false => simp
    | true => simp [hdevices hallowed]
  have hdevice : Mount.behind (if permissions.devices then
        [.bind (absolute ["dev"]) devices true] else []) inner = some (outer, writable) ↔
      permissions.devices = true ∧ writable = true ∧ Leads disk [absolute ["dev"]] inner outer := by
    cases hallowed : permissions.devices with
    | false => simp [Mount.behind]
    | true =>
        rw [leads_single, hdevices hallowed]
        by_cases hprefix : absolute ["dev"] <+: inner
        · simp [Mount.behind, Mount.Covers, Mount.place, Mount.shows, hprefix, eq_comm, and_comm]
        · simp [Mount.behind, Mount.Covers, Mount.place, hprefix]
  have hshell : Mount.behind (if permissions.shell then systemBinds disk shellRoots else []) inner =
        some (outer, writable) ↔
      permissions.shell = true ∧ writable = false ∧ Leads disk shellRoots inner outer := by
    cases permissions.shell with
    | false => simp [Mount.behind]
    | true => simpa using behind_system roots_apart.2
  have hcovered : Mount.Covers (if permissions.devices then
        [.bind (absolute ["dev"]) devices true] else []) inner ↔
      permissions.devices = true ∧ absolute ["dev"] <+: inner := by
    rw [covers_if]
    simp [Mount.Covers, Mount.place]
  have hbelow : Leads disk [absolute ["dev"]] inner outer → absolute ["dev"] <+: inner :=
    fun hleads => (leads_single.mp hleads).1
  have hprograms : Mount.Covers (if permissions.shell then systemBinds disk shellRoots else [])
      inner ↔ permissions.shell = true ∧ ∃ other, Leads disk shellRoots inner other := by
    rw [covers_if, covers_system]
  have hsame : inner = outer ↔ outer = inner := eq_comm
  rw [hmounts]
  simp only [Mount.behind_append_some, Mount.covers_append, hcovered, hprograms,
    Mount.covers_binds, Mount.behind_binds, behind_system roots_apart.1, behind_own, hdevice,
    hshell]
  unfold MayWrite MayOnlyRead
  cases writable with
  | true =>
      by_cases hdev : permissions.devices = true ∧ absolute ["dev"] <+: inner
      · simp [hdev]
      · have hnone : ¬ (permissions.devices = true ∧ Leads disk [absolute ["dev"]] inner outer) :=
          fun h => hdev ⟨h.1, hbelow h.2⟩
        simp only [if_neg hdev]
        simp [hnone]
        constructor
        · rintro ⟨⟨-, hshell⟩, hgranted, heq⟩
          exact ⟨hshell, heq.symm, hgranted⟩
        · rintro ⟨hshell, heq, hgranted⟩
          exact ⟨⟨not_and.mp hdev, hshell⟩, hgranted, heq.symm⟩
  | false =>
      by_cases hexecutable : canonicalExecutable <+: inner
      · simp [hexecutable, hsame, and_reversed]
      · simp [hexecutable, and_reversed]

theorem strict_plugin_command_ok {build : Build} {projectRoot executable : Location}
    {plugin : RustPluginConfig} {command : Command}
    (h : strictPluginCommand build disk projectRoot executable plugin = .ok command) :
    disk.canonicalize [] projectRoot = .ok command.directory ∧
      ∃ canonicalExecutable granted, disk.canonicalize [] executable = .ok canonicalExecutable ∧
        grantedRoots build disk command.directory plugin.permissions.filesystemRoots =
          .ok granted ∧
        command.arguments = sandboxArguments disk command.directory canonicalExecutable granted
          plugin.permissions ++ (47 :: joinNames 47 canonicalExecutable) ::
            plugin.arguments.map osString := by
  unfold strictPluginCommand at h
  split at h
  case h_1 => cases h
  split at h
  case h_1 => cases h
  rename_i canonicalRoot hroot
  split at h
  case h_1 => cases h
  rename_i canonicalExecutable hexecutable
  cases hgranted : grantedRoots build disk canonicalRoot plugin.permissions.filesystemRoots with
  | error error =>
      rw [hgranted] at h
      cases h
  | ok granted =>
      rw [hgranted] at h
      cases h
      exact ⟨hroot, canonicalExecutable, granted, hexecutable, hgranted, rfl⟩

/-- A computer with bubblewrap and a project that has a plugin. -/
def paperComputer : Disk :=
  .directory [(osString "usr", .directory [
      (osString "bin", .directory [(osString "bwrap", .file [] 493)]),
      (osString "lib", .directory [])]),
    (osString "lib", .symlink (.ok (absolute ["usr", "lib"]))),
    (osString "app", .directory [
      (osString "plugin", .file [] 493),
      (osString "data", .directory [])])]

def paperPlugin : RustPluginConfig :=
  { id := "paper", executable := "plugin", timeoutMs := 1000, sandbox := .strict,
    permissions := { filesystemRoots := ["data"], shell := true } }

theorem links_in_directory {entries : List (OsString × Disk)}
    (h : ∀ item ∈ entries, LinksIn disk item.2) : LinksIn disk (.directory entries) := by
  intro place target hfind
  cases place with
  | nil => cases hfind
  | cons name rest =>
      rw [Disk.find_cons] at hfind
      obtain ⟨node, hnode, hrest⟩ := Option.bind_eq_some_iff.mp hfind
      obtain ⟨item, hitem, rfl⟩ := Option.map_eq_some_iff.mp hnode
      exact h item (List.mem_of_find?_eq_some hitem) rest target hrest

theorem links_in_file {contents : List UInt8} {mode : Nat} :
    LinksIn disk (.file contents mode) :=
  fun place _ hfind => absurd hfind (Disk.no_links_file place _)

theorem links_in_link {target : Location} {node : Disk} (h : disk.find target = some node)
    (hnode : ∀ target', node ≠ .symlink target') : LinksIn disk (.symlink (.ok target)) := by
  intro place other hfind
  cases place with
  | nil =>
      cases hfind
      exact ⟨node, h, hnode⟩
  | cons name rest => cases hfind

theorem paper_links : LinksLead paperComputer := by
  refine links_in_directory fun item hitem => ?_
  simp only [List.mem_cons, List.not_mem_nil, or_false] at hitem
  obtain rfl | rfl | rfl := hitem
  · refine links_in_directory fun item hitem => ?_
    simp only [List.mem_cons, List.not_mem_nil, or_false] at hitem
    obtain rfl | rfl := hitem
    · refine links_in_directory fun item hitem => ?_
      obtain rfl := List.mem_singleton.mp hitem
      exact links_in_file
    · exact links_in_directory fun item hitem => nomatch hitem
  · have hlib : paperComputer.find (absolute ["usr", "lib"]) = some (.directory []) := rfl
    exact links_in_link hlib fun _ heq => nomatch heq
  · refine links_in_directory fun item hitem => ?_
    simp only [List.mem_cons, List.not_mem_nil, or_false] at hitem
    obtain rfl | rfl := hitem
    · exact links_in_file
    · exact links_in_directory fun item hitem => nomatch hitem

end PamDesktop.Worker
