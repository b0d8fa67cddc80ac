import PamDesktop.Foundations.FileTree

/-!
# Disks

A directory tree with permission bits, in which a symbolic link carries the place that it leads
to. `canonicalize` follows a path one name after the other. Inside a tree without links it leads
to the names themselves (`canonicalize_no_links`).
-/

namespace Foundations

/-- A place on a disk: the names from the root down. -/
abbrev Location := List OsString

/-- Why a path leads nowhere. -/
inductive PathError where
  | notFound | notADirectory | tooManyLinks
deriving DecidableEq

/-- The text of the error, as the standard library prints it on Linux. -/
def PathError.text : PathError → String
  | .notFound => "No such file or directory (os error 2)"
  | .notADirectory => "Not a directory (os error 20)"
  | .tooManyLinks => "Too many levels of symbolic links (os error 40)"

/-- A place as an absolute path. -/
def displayed (place : Location) : String := "/" ++ "/".intercalate (place.map toStringLossy)

inductive Disk where
  | file (contents : List UInt8) (mode : Nat)
  | directory (entries : List (OsString × Disk))
  | symlink (target : Except PathError Location)
  | special

namespace Disk

/-- The direct entry of this name. -/
def child (name : OsString) : Disk → Option Disk
  | .directory entries => (entries.find? fun item => item.1 = name).map Prod.snd
  | _ => none

/-- What is at a place, links not followed. -/
def find (disk : Disk) : Location → Option Disk
  | [] => some disk
  | name :: rest =>
      match disk.child name with
      | none => none
      | some node => node.find rest

def isFile : Option Disk → Bool
  | some (.file _ _) => true
  | _ => false

def isDirectory : Option Disk → Bool
  | some (.directory _) => true
  | _ => false

/-- Where one more name leads from a directory. -/
def follow (disk : Disk) (place : Location) (name : OsString) : Except PathError Location :=
  match disk.find (place ++ [name]) with
  | some (.symlink target) => target
  | some _ => .ok (place ++ [name])
  | none => .error (if isDirectory (disk.find place) then .notFound else .notADirectory)

/-- Where a path leads from a directory. -/
def canonicalize (disk : Disk) (place : Location) : List OsString → Except PathError Location
  | [] => .ok place
  | name :: rest =>
      match disk.follow place name with
      | .error error => .error error
      | .ok next => disk.canonicalize next rest

/-- No link is anywhere in the tree. -/
def NoLinks (disk : Disk) : Prop := ∀ place target, disk.find place ≠ some (.symlink target)

/-! ## Finding -/

theorem find_cons (disk : Disk) (name : OsString) (rest : Location) :
    disk.find (name :: rest) = (disk.child name).bind (·.find rest) := by
  rw [find]
  cases disk.child name <;> rfl

theorem find_append (disk : Disk) (first second : Location) :
    disk.find (first ++ second) = (disk.find first).bind (·.find second) := by
  induction first generalizing disk with
  | nil => rfl
  | cons name rest ih =>
      rw [List.cons_append, find_cons, find_cons, Option.bind_assoc]
      congr 1
      funext node
      exact ih node

theorem find_singleton (disk : Disk) (name : OsString) : disk.find [name] = disk.child name := by
  rw [find_cons]
  cases disk.child name <;> rfl

theorem find_unlisted {entries : List (OsString × Disk)} {name : OsString}
    (h : name ∉ entries.map Prod.fst) : (directory entries).find [name] = none := by
  rw [find_singleton, child, Option.map_eq_none_iff, List.find?_eq_none]
  intro item hitem heq
  rw [decide_eq_true_eq] at heq
  exact h (heq ▸ List.mem_map_of_mem hitem)

theorem not_file_and_directory {node : Option Disk} (hfile : isFile node = true) :
    isDirectory node ≠ true := by
  intro hdirectory
  match node with
  | some (.directory _) => cases hfile
  | some (.file _ _) => cases hdirectory

/-- Nothing is below what is no directory. -/
theorem find_below {disk : Disk} {name : OsString} {rest : Location}
    (h : disk.find (name :: rest) ≠ none) : ∃ entries, disk = .directory entries := by
  cases disk with
  | directory entries => exact ⟨entries, rfl⟩
  | file contents mode => exact absurd rfl h
  | symlink target => exact absurd rfl h
  | special => exact absurd rfl h

/-! ## Following -/

theorem canonicalize_cons {disk : Disk} {place next : Location} {name : OsString}
    (h : disk.follow place name = .ok next) (rest : List OsString) :
    disk.canonicalize place (name :: rest) = disk.canonicalize next rest := by
  rw [canonicalize, h]

theorem canonicalize_cons_ok {disk : Disk} {place last : Location} {name : OsString}
    {rest : List OsString} (h : disk.canonicalize place (name :: rest) = .ok last) :
    ∃ next, disk.follow place name = .ok next ∧ disk.canonicalize next rest = .ok last := by
  rw [canonicalize] at h
  split at h
  · cases h
  · rename_i next hnext
    exact ⟨next, hnext, h⟩

/-- A path in two parts. -/
theorem canonicalize_append (disk : Disk) (place : Location) (first second : List OsString) :
    disk.canonicalize place (first ++ second) =
      match disk.canonicalize place first with
      | .error error => .error error
      | .ok next => disk.canonicalize next second := by
  induction first generalizing place with
  | nil => rfl
  | cons name rest ih =>
      rw [List.cons_append, canonicalize, canonicalize]
      cases disk.follow place name with
      | error error => rfl
      | ok next => exact ih next

/-- What is at the place, if it is no link, is what the path leads to. -/
theorem follow_found {disk : Disk} {place : Location} {name : OsString} {node : Disk}
    (hnode : disk.find (place ++ [name]) = some node) (hlink : ∀ target, node ≠ .symlink target) :
    disk.follow place name = .ok (place ++ [name]) := by
  rw [follow, hnode]
  cases node with
  | symlink target => exact absurd rfl (hlink target)
  | file contents mode => rfl
  | directory entries => rfl
  | special => rfl

theorem follow_missing {disk : Disk} {place next : Location} {name : OsString}
    (h : disk.find (place ++ [name]) = none) : disk.follow place name ≠ .ok next := by
  rw [follow, h]
  intro hok
  cases hok

/-- A path does not lead on from a file. -/
theorem canonicalize_below_file {disk : Disk} {place last : Location} {name : OsString}
    {rest : List OsString} (hfile : isFile (disk.find place) = true) :
    disk.canonicalize place (name :: rest) ≠ .ok last := by
  intro h
  obtain ⟨next, hnext, _⟩ := canonicalize_cons_ok h
  refine follow_missing ?_ hnext
  rw [find_append]
  cases hfind : disk.find place with
  | none => rfl
  | some node =>
      rw [hfind] at hfile
      cases node with
      | file contents mode => rfl
      | directory entries => cases hfile
      | symlink target => cases hfile
      | special => cases hfile

/-- A path of directories leads to the names that it is made of. -/
theorem canonicalize_found {disk node : Disk} {place : Location} {names : List OsString}
    (hnode : disk.find (place ++ names) = some node) (hlink : ∀ target, node ≠ .symlink target) :
    disk.canonicalize place names = .ok (place ++ names) := by
  induction names generalizing place with
  | nil => rw [canonicalize, List.append_nil]
  | cons name rest ih =>
      rw [List.append_cons] at hnode ⊢
      rw [find_append] at hnode
      obtain ⟨inner, hinner, hrest⟩ := Option.bind_eq_some_iff.mp hnode
      have hnext : disk.follow place name = .ok (place ++ [name]) := by
        refine follow_found hinner fun target heq => ?_
        subst heq
        cases rest with
        | nil =>
            cases hrest
            exact hlink target rfl
        | cons other rest => cases hrest
      rw [canonicalize_cons hnext]
      refine ih ?_
      rw [find_append, hinner]
      exact hrest

theorem no_links_file {contents : List UInt8} {mode : Nat} : (Disk.file contents mode).NoLinks := by
  intro place target h
  cases place with
  | nil => cases h
  | cons name rest => cases h

theorem no_links_directory {entries : List (OsString × Disk)}
    (h : ∀ item ∈ entries, item.2.NoLinks) : (Disk.directory entries).NoLinks := by
  intro place target hfind
  cases place with
  | nil => cases hfind
  | cons name rest =>
      rw [find_cons] at hfind
      obtain ⟨node, hnode, hrest⟩ := Option.bind_eq_some_iff.mp hfind
      obtain ⟨item, hitem, rfl⟩ := Option.map_eq_some_iff.mp hnode
      exact h item (List.mem_of_find?_eq_some hitem) rest target hrest

theorem NoLinks.child {disk node : Disk} {name : OsString} (h : disk.NoLinks)
    (hnode : disk.child name = some node) : node.NoLinks := by
  intro place target hfind
  refine h (name :: place) target ?_
  rw [find_cons, hnode]
  exact hfind

/-- In a tree without links a path leads to the names that it is made of. -/
theorem canonicalize_no_links {disk tree : Disk} {place last : Location} {names : List OsString}
    (htree : disk.find place = some tree) (hlinks : tree.NoLinks) :
    disk.canonicalize place names = .ok last ↔
      last = place ++ names ∧ tree.find names ≠ none := by
  induction names generalizing place tree with
  | nil =>
      rw [canonicalize, List.append_nil, find]
      constructor
      · intro h
        cases h
        exact ⟨rfl, Option.some_ne_none tree⟩
      · rintro ⟨rfl, _⟩
        rfl
  | cons name rest ih =>
      have hchild : disk.find (place ++ [name]) = tree.child name := by
        rw [find_append, htree, ← find_singleton tree name]
        rfl
      rw [find_cons]
      cases hnode : tree.child name with
      | none =>
          rw [hnode] at hchild
          constructor
          · intro h
            obtain ⟨next, hnext, _⟩ := canonicalize_cons_ok h
            exact absurd hnext (follow_missing hchild)
          · intro h
            exact absurd rfl h.2
      | some node =>
          rw [hnode] at hchild
          have hnext : disk.follow place name = .ok (place ++ [name]) := by
            refine follow_found hchild fun target heq => hlinks [name] target ?_
            rw [find_singleton, hnode, heq]
          rw [canonicalize_cons hnext, ih hchild (hlinks.child hnode), List.append_assoc]
          exact Iff.rfl

/-! ## The directories of a disk -/

mutual

/-- Every directory at or below these entries. -/
def directoriesBelow : List (OsString × Disk) → List Location
  | [] => []
  | item :: rest => directoriesUnder item ++ directoriesBelow rest
termination_by structural entries => entries

/-- Every directory at or below an entry. -/
def directoriesUnder : OsString × Disk → List Location
  | (name, node) => (directories node).map (name :: ·)
termination_by structural item => item

/-- Every directory of a disk, links not followed. -/
def directories : Disk → List Location
  | .directory entries => [] :: directoriesBelow entries
  | .file _ _ => []
  | .symlink _ => []
  | .special => []
termination_by structural disk => disk

end

theorem mem_directories_below {entries : List (OsString × Disk)} {item : OsString × Disk}
    {place : Location} (hitem : item ∈ entries) (hplace : place ∈ item.2.directories) :
    item.1 :: place ∈ directoriesBelow entries := by
  induction entries with
  | nil => cases hitem
  | cons first rest ih =>
      unfold directoriesBelow
      obtain rfl | hitem := List.mem_cons.mp hitem
      · refine List.mem_append_left _ ?_
        obtain ⟨name, node⟩ := item
        exact List.mem_map_of_mem hplace
      · exact List.mem_append_right _ (ih hitem)

theorem mem_directories {disk : Disk} {place : Location}
    (h : isDirectory (disk.find place) = true) : place ∈ disk.directories := by
  induction place generalizing disk with
  | nil =>
      cases disk with
      | directory entries => exact List.mem_cons_self
      | file contents mode => cases h
      | symlink target => cases h
      | special => cases h
  | cons name rest ih =>
      rw [find_cons] at h
      cases hnode : disk.child name with
      | none =>
          rw [hnode] at h
          cases h
      | some node =>
          rw [hnode] at h
          cases disk with
          | directory entries =>
              obtain ⟨item, hitem, rfl⟩ := Option.map_eq_some_iff.mp hnode
              have hname := List.find?_some hitem
              obtain rfl := of_decide_eq_true hname
              exact List.mem_cons_of_mem _
                (mem_directories_below (List.mem_of_find?_eq_some hitem) (ih h))
          | file contents mode => cases hnode
          | symlink target => cases hnode
          | special => cases hnode

end Disk

end Foundations
