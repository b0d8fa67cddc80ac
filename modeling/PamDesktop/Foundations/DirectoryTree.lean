import Mathlib.Algebra.BigOperators.Group.Finset.Basic
import Mathlib.Algebra.BigOperators.Ring.List
import Mathlib.Algebra.Order.BigOperators.Group.List
import Mathlib.Algebra.Order.Ring.Nat
import Mathlib.Data.Finset.Card
import Mathlib.Data.Finset.Option

/-!
# Directory trees and their removal

A tree of directories and files, by place. It carries the proof that everything stands in a
directory, so a tree is changed only by the operations below. `removalStep` is one step of a
recursive removal that others may watch, help or stop: it lists a directory, visits what it has
listed and removes the directory itself in the end. Read `Sweeping.step` for what a removal has
yet to visit and `removal_cost` for why it comes to its end.
-/

namespace Foundations

/-- What stands at a place. -/
inductive TreeItem (ν : Type) where
  | directory
  | file (contents : ν)

/-- A tree of directories with a root. -/
structure DirectoryTree (κ ν : Type) [DecidableEq κ] where
  find : List κ → Option (TreeItem ν)
  places : Finset (List κ)
  mem_places : ∀ place, place ∈ places ↔ find place ≠ none
  root : find [] = some .directory
  parent : ∀ place name, find (place ++ [name]) ≠ none → find place = some .directory

namespace DirectoryTree

variable {κ ν : Type} [DecidableEq κ]

/-- The tree of an empty directory. -/
def empty : DirectoryTree κ ν where
  find place := if place = [] then some .directory else none
  places := {[]}
  mem_places place := by
    rw [Finset.mem_singleton, ne_eq, ite_eq_right_iff, Classical.not_imp]
    exact ⟨fun h => ⟨h, Option.some_ne_none _⟩, And.left⟩
  root := if_pos rfl
  parent place name h := by
    rw [if_neg (List.append_ne_nil_of_right_ne_nil _ (List.cons_ne_nil _ _))] at h
    exact absurd rfl h

/-- `is_dir`. -/
def isDirectory (tree : DirectoryTree κ ν) (place : List κ) : Bool :=
  match tree.find place with
  | some .directory => true
  | _ => false

/-- `is_file`. -/
def isFile (tree : DirectoryTree κ ν) (place : List κ) : Bool :=
  match tree.find place with
  | some (.file _) => true
  | _ => false

/-- The name of a place in a directory. -/
def nameIn (place other : List κ) : Option κ :=
  if place.isPrefixOf other then
    match other.drop place.length with
    | [name] => some name
    | _ => none
  else none

/-- The names in a directory. -/
def children (tree : DirectoryTree κ ν) (place : List κ) : Finset κ :=
  tree.places.biUnion fun other => (nameIn place other).toFinset

/-- The names are those in the directory, each of them once. -/
def Lists (tree : DirectoryTree κ ν) (place : List κ) (names : List κ) : Prop :=
  names.Nodup ∧ names.toFinset = tree.children place

instance (tree : DirectoryTree κ ν) (place names : List κ) : Decidable (tree.Lists place names) :=
  inferInstanceAs (Decidable (_ ∧ _))

/-! ## Finding -/

variable {tree tree' : DirectoryTree κ ν} {place other : List κ} {name : κ}

theorem is_directory_iff : tree.isDirectory place = true ↔ tree.find place = some .directory := by
  rw [isDirectory]
  split
  · rename_i h
    exact iff_of_true rfl h
  · rename_i h
    exact iff_of_false Bool.false_ne_true h

theorem is_file_iff :
    tree.isFile place = true ↔ ∃ contents, tree.find place = some (.file contents) := by
  rw [isFile]
  split
  · rename_i contents h
    exact iff_of_true rfl ⟨contents, h⟩
  · rename_i h
    exact iff_of_false Bool.false_ne_true fun ⟨contents, hfile⟩ => h contents hfile

theorem name_in_iff : nameIn place other = some name ↔ other = place ++ [name] := by
  rw [nameIn]
  constructor
  · intro h
    split at h
    · rename_i hwithin
      obtain ⟨rest, rfl⟩ := List.isPrefixOf_iff_prefix.mp hwithin
      rw [List.drop_left] at h
      split at h
      · rw [Option.some.inj h]
      · cases h
    · cases h
  · rintro rfl
    rw [if_pos (List.isPrefixOf_iff_prefix.mpr (List.prefix_append place [name])), List.drop_left]

theorem mem_children : name ∈ tree.children place ↔ tree.find (place ++ [name]) ≠ none := by
  rw [children, Finset.mem_biUnion, ← tree.mem_places]
  constructor
  · rintro ⟨other, hother, hname⟩
    rw [← name_in_iff.mp (Option.mem_toFinset.mp hname)]
    exact hother
  · exact fun h => ⟨_, h, Option.mem_toFinset.mpr (name_in_iff.mpr rfl)⟩

theorem Lists.mem {names : List κ} (h : tree.Lists place names) :
    name ∈ names ↔ tree.find (place ++ [name]) ≠ none := by
  rw [← mem_children, ← h.2, List.mem_toFinset]

/-- What a place is below is a directory. -/
theorem find_above {rest : List κ} (h : tree.find (place ++ rest) ≠ none) (hrest : rest ≠ []) :
    tree.find place = some .directory := by
  induction rest using List.reverseRecOn with
  | nil => exact absurd rfl hrest
  | append_singleton rest name ih =>
      rw [← List.append_assoc] at h
      have habove := tree.parent _ _ h
      rcases eq_or_ne rest [] with rfl | hne
      · rwa [List.append_nil] at habove
      · exact ih (by rw [habove]; exact Option.some_ne_none _) hne

theorem find_ancestor (hwithin : place <+: other) (h : tree.find other ≠ none)
    (hne : place ≠ other) :
    tree.find place = some .directory := by
  obtain ⟨rest, rfl⟩ := hwithin
  exact find_above h fun hnil => hne (by rw [hnil, List.append_nil])

/-! ## Operations -/

/-- `mkdir`, or a new file, where there is nothing in a directory. -/
def create (tree : DirectoryTree κ ν) (place : List κ) (name : κ) (item : TreeItem ν) :
    Option (DirectoryTree κ ν) :=
  if h : tree.isDirectory place = true ∧ (tree.find (place ++ [name])).isNone = true then
    some {
      find := fun other => if other = place ++ [name] then some item else tree.find other
      places := insert (place ++ [name]) tree.places
      mem_places := fun other => by
        rw [Finset.mem_insert, tree.mem_places]
        split
        · rename_i heq
          exact iff_of_true (.inl heq) (Option.some_ne_none item)
        · rename_i hne
          exact or_iff_right hne
      root := by
        rw [if_neg (Ne.symm (List.append_ne_nil_of_right_ne_nil _ (List.cons_ne_nil _ _)))]
        exact tree.root
      parent := fun other inner hinner => by
        have hdirectory := is_directory_iff.mp h.1
        have hvacant := Option.isNone_iff_eq_none.mp h.2
        split at hinner
        · rename_i heq
          obtain ⟨rfl, -⟩ := List.append_inj' heq rfl
          rw [if_neg (by simp)]
          exact hdirectory
        · have hparent := tree.parent other inner hinner
          rw [if_neg]
          · exact hparent
          · intro heq
            rw [heq, hvacant] at hparent
            cases hparent }
  else none

/-- A place without anything below it is taken off. -/
def discard (tree : DirectoryTree κ ν) (place : List κ) (hroot : place ≠ [])
    (hbelow : tree.children place = ∅) : DirectoryTree κ ν where
  find other := if other = place then none else tree.find other
  places := tree.places.erase place
  mem_places other := by
    rw [Finset.mem_erase, tree.mem_places]
    split
    · rename_i heq
      exact iff_of_false (fun h => h.1 heq) fun h => h rfl
    · rename_i hne
      exact and_iff_right hne
  root := by
    rw [if_neg (Ne.symm hroot)]
    exact tree.root
  parent other inner h := by
    split at h
    · exact absurd rfl h
    · rw [if_neg]
      · exact tree.parent other inner h
      · rintro rfl
        exact absurd (mem_children.mpr h) (by rw [hbelow]; exact Finset.notMem_empty _)

/-- `unlink`: only files can be unlinked. -/
def unlink (tree : DirectoryTree κ ν) (place : List κ) : DirectoryTree κ ν :=
  if h : place ≠ [] ∧ tree.children place = ∅ ∧ tree.isFile place = true then
    tree.discard place h.1 h.2.1
  else tree

/-- `rmdir`: only empty directories can be removed. -/
def rmdir (tree : DirectoryTree κ ν) (place : List κ) : DirectoryTree κ ν :=
  if h : place ≠ [] ∧ tree.children place = ∅ ∧ tree.isDirectory place = true then
    tree.discard place h.1 h.2.1
  else tree

/-- `rename` of a directory: its new place is vacant, or an empty directory. -/
def move (tree : DirectoryTree κ ν) (source place : List κ) (name : κ) :
    Option (DirectoryTree κ ν) :=
  if h : (tree.isDirectory source = true ∧ tree.isDirectory place = true) ∧
      ¬ source <+: place ++ [name] ∧ tree.children (place ++ [name]) = ∅ ∧
      tree.isFile (place ++ [name]) = false then
    some {
      find := fun other =>
        if place ++ [name] <+: other then tree.find (source ++ other.drop (place.length + 1))
        else if source <+: other then none else tree.find other
      places :=
        (tree.places.filter fun other => ¬ place ++ [name] <+: other ∧ ¬ source <+: other) ∪
          (tree.places.filter fun other => source <+: other).image fun other =>
            place ++ [name] ++ other.drop source.length
      mem_places := fun other => by
        have hlength : (place ++ [name]).length = place.length + 1 := List.length_append
        rw [Finset.mem_union, Finset.mem_filter, tree.mem_places, Finset.mem_image]
        split
        · rename_i htarget
          obtain ⟨rest, rfl⟩ := htarget
          rw [← hlength, List.drop_left, or_iff_right fun hmem => hmem.2.1 (List.prefix_append _ _)]
          constructor
          · rintro ⟨moved, hmoved, heq⟩
            rw [Finset.mem_filter, tree.mem_places] at hmoved
            obtain ⟨hfound, inner, rfl⟩ := hmoved
            rw [List.drop_left] at heq
            rwa [← List.append_cancel_left heq]
          · intro hfound
            refine ⟨source ++ rest, Finset.mem_filter.mpr ⟨(tree.mem_places _).mpr hfound,
              List.prefix_append _ _⟩, ?_⟩
            rw [List.drop_left]
        · rename_i htarget
          have hnone : ¬ ∃ moved ∈ tree.places.filter fun other => source <+: other,
              place ++ [name] ++ moved.drop source.length = other :=
            fun ⟨_, _, heq⟩ => htarget ⟨_, heq⟩
          rw [or_iff_left hnone]
          split
          · rename_i hsource
            exact iff_of_false (fun hmem => hmem.2.2 hsource) fun hne => hne rfl
          · rename_i hsource
            exact and_iff_left ⟨htarget, hsource⟩
      root := by
        rw [if_neg, if_neg]
        · exact tree.root
        · intro hsource
          exact h.2.1 ((List.prefix_nil.mp hsource) ▸ List.nil_prefix)
        · intro htarget
          exact List.append_ne_nil_of_right_ne_nil _ (List.cons_ne_nil _ _)
            (List.prefix_nil.mp htarget)
      parent := fun other inner hinner => by
        have hlength : (place ++ [name]).length = place.length + 1 := List.length_append
        split at hinner
        · rename_i htarget
          rcases List.prefix_concat_iff.mp htarget with heq | hbelow
          · obtain ⟨rfl, -⟩ := List.append_inj' heq rfl
            rw [if_neg, if_neg]
            · exact is_directory_iff.mp h.1.2
            · exact fun hsource => h.2.1 (hsource.trans (List.prefix_append _ _))
            · intro hlong
              have := hlong.length_le
              omega
          · obtain ⟨rest, rfl⟩ := hbelow
            rw [if_pos (List.prefix_append _ _), ← hlength, List.drop_left]
            rw [← hlength, List.append_assoc (place ++ [name]), List.drop_left,
              ← List.append_assoc] at hinner
            exact tree.parent _ inner hinner
        · rename_i htarget
          split at hinner
          · exact absurd rfl hinner
          · rename_i hsource
            rw [if_neg fun hwithin => htarget (hwithin.trans (List.prefix_append _ _)),
              if_neg fun hwithin => hsource (hwithin.trans (List.prefix_append _ _))]
            exact tree.parent other inner hinner }
  else none

/-! ## What the operations do -/

theorem find_empty (place : List κ) :
    (empty : DirectoryTree κ ν).find place = if place = [] then some .directory else none := rfl

theorem create_eq_some {item : TreeItem ν} (h : tree.create place name item = some tree') :
    tree.find place = some .directory ∧ tree.find (place ++ [name]) = none ∧
      ∀ other,
        tree'.find other = if other = place ++ [name] then some item else tree.find other := by
  rw [create] at h
  split at h
  · rename_i hcan
    obtain rfl := Option.some.inj h
    exact ⟨is_directory_iff.mp hcan.1, Option.isNone_iff_eq_none.mp hcan.2, fun _ => rfl⟩
  · cases h

theorem create_isSome {item : TreeItem ν} (hplace : tree.find place = some .directory)
    (hname : tree.find (place ++ [name]) = none) :
    ∃ tree', tree.create place name item = some tree' := by
  rw [create, dif_pos ⟨is_directory_iff.mpr hplace, by rw [hname]; rfl⟩]
  exact ⟨_, rfl⟩

theorem move_eq_some {source : List κ} (h : tree.move source place name = some tree') :
    tree.find source = some .directory ∧ tree.find place = some .directory ∧
      ¬ source <+: place ++ [name] ∧ tree.children (place ++ [name]) = ∅ ∧
      (∀ rest, tree'.find (place ++ [name] ++ rest) = tree.find (source ++ rest)) ∧
      ∀ other, ¬ place ++ [name] <+: other →
        tree'.find other = if source <+: other then none else tree.find other := by
  rw [move] at h
  split at h
  · rename_i hcan
    obtain rfl := Option.some.inj h
    refine ⟨is_directory_iff.mp hcan.1.1, is_directory_iff.mp hcan.1.2, hcan.2.1, hcan.2.2.1,
      fun rest => ?_, fun other hother => if_neg hother⟩
    have hlength : (place ++ [name]).length = place.length + 1 := List.length_append
    show (if place ++ [name] <+: place ++ [name] ++ rest then
      tree.find (source ++ (place ++ [name] ++ rest).drop (place.length + 1)) else _) = _
    rw [if_pos (List.prefix_append _ _), ← hlength, List.drop_left]
  · cases h

theorem move_isSome {source : List κ} (hsource : tree.find source = some .directory)
    (hplace : tree.find place = some .directory) (hapart : ¬ source <+: place ++ [name])
    (hvacant : tree.find (place ++ [name]) = none) :
    ∃ tree', tree.move source place name = some tree' := by
  have hchildren : tree.children (place ++ [name]) = ∅ := by
    refine Finset.eq_empty_of_forall_notMem fun inner hinner => ?_
    have habove := find_above (mem_children.mp hinner) (List.cons_ne_nil _ _)
    rw [hvacant] at habove
    cases habove
  have hfile : tree.isFile (place ++ [name]) = false := by
    rw [isFile, hvacant]
  rw [move, dif_pos ⟨⟨is_directory_iff.mpr hsource, is_directory_iff.mpr hplace⟩, hapart,
    hchildren, hfile⟩]
  exact ⟨_, rfl⟩

/-- What `unlink` and `rmdir` have in common. -/
structure Discarded (tree tree' : DirectoryTree κ ν) (place : List κ) : Prop where
  same : ∀ other, other ≠ place → tree'.find other = tree.find other
  fewer : tree'.find place = tree.find place ∨ tree'.find place = none

theorem discarded_refl (tree : DirectoryTree κ ν) (place : List κ) :
    Discarded tree tree place := ⟨fun _ _ => rfl, .inl rfl⟩

theorem unlink_discarded (tree : DirectoryTree κ ν) (place : List κ) :
    Discarded tree (tree.unlink place) place := by
  rw [unlink]
  split
  · exact ⟨fun other hne => if_neg hne, .inr (if_pos rfl)⟩
  · exact discarded_refl tree place

theorem rmdir_discarded (tree : DirectoryTree κ ν) (place : List κ) :
    Discarded tree (tree.rmdir place) place := by
  rw [rmdir]
  split
  · exact ⟨fun other hne => if_neg hne, .inr (if_pos rfl)⟩
  · exact discarded_refl tree place

/-- What is no directory is gone after `unlink`. -/
theorem find_unlink (hroot : place ≠ []) (h : tree.isDirectory place = false) :
    (tree.unlink place).find place = none := by
  have hchildren : tree.children place = ∅ := by
    refine Finset.eq_empty_of_forall_notMem fun name hname => ?_
    have habove := find_above (mem_children.mp hname) (List.cons_ne_nil _ _)
    rw [is_directory_iff.mpr habove] at h
    cases h
  rw [unlink]
  split
  · exact if_pos rfl
  · rename_i hcan
    cases hfind : tree.find place with
    | none => rfl
    | some item =>
        cases item with
        | directory =>
            rw [is_directory_iff.mpr hfind] at h
            cases h
        | file contents =>
            exact absurd ⟨hroot, hchildren, is_file_iff.mpr ⟨contents, hfind⟩⟩ hcan

/-- A directory that is left by `rmdir` still has something in it. -/
theorem find_rmdir (hroot : place ≠ []) (hdirectory : tree.find place = some .directory)
    (h : (tree.rmdir place).find place ≠ none) :
    ∃ name, (tree.rmdir place).find (place ++ [name]) ≠ none := by
  by_cases hchildren : tree.children place = ∅
  · rw [rmdir, dif_pos ⟨hroot, hchildren, is_directory_iff.mpr hdirectory⟩] at h
    exact absurd (if_pos rfl) h
  · obtain ⟨name, hname⟩ := Finset.nonempty_iff_ne_empty.mpr hchildren
    refine ⟨name, ?_⟩
    rw [rmdir, dif_neg fun hcan => hchildren hcan.2.1]
    exact mem_children.mp hname

/-! ## How much there is at a place -/

/-- The number of things at a place and below. -/
def size (tree : DirectoryTree κ ν) (place : List κ) : Nat :=
  (tree.places.filter (place <+: ·)).card

theorem size_mono (h : ∀ other, place <+: other → tree'.find other ≠ none →
    tree.find other ≠ none) : tree'.size place ≤ tree.size place := by
  refine Finset.card_le_card fun other hother => ?_
  rw [Finset.mem_filter, mem_places] at hother ⊢
  exact ⟨h other hother.2 hother.1, hother.2⟩

theorem size_zero (h : tree.find place = none) : tree.size place = 0 := by
  rw [size, Finset.card_eq_zero, Finset.filter_eq_empty_iff]
  rintro other hother ⟨rest, rfl⟩
  rw [mem_places] at hother
  rcases eq_or_ne rest [] with rfl | hne
  · rw [List.append_nil] at hother
    exact hother h
  · rw [find_above hother hne] at h
    cases h

/-- A directory is more than what is in it. -/
theorem size_children (hplace : tree.find place ≠ none) {names : List κ} (hnodup : names.Nodup) :
    1 + (names.map fun name => tree.size (place ++ [name])).sum ≤ tree.size place := by
  have hdisjoint : ∀ a ∈ names.toFinset, ∀ b ∈ names.toFinset, a ≠ b →
      Disjoint (tree.places.filter (place ++ [a] <+: ·))
        (tree.places.filter (place ++ [b] <+: ·)) := by
    intro a _ b _ hne
    refine Finset.disjoint_left.mpr fun other ha hb => hne ?_
    rw [Finset.mem_filter] at ha hb
    have hsame := (List.prefix_of_prefix_length_le ha.2 hb.2 (by simp)).eq_of_length (by simp)
    exact List.singleton_injective (List.append_cancel_left hsame)
  have hself : place ∉ names.toFinset.biUnion fun name =>
      tree.places.filter (place ++ [name] <+: ·) := by
    rw [Finset.mem_biUnion]
    rintro ⟨name, -, hmem⟩
    have hlong := (Finset.mem_filter.mp hmem).2.length_le
    rw [List.length_append, List.length_singleton] at hlong
    omega
  have hsum : (names.map fun name => tree.size (place ++ [name])).sum =
      (names.toFinset.biUnion fun name => tree.places.filter (place ++ [name] <+: ·)).card := by
    rw [Finset.card_biUnion hdisjoint, List.sum_toFinset _ hnodup]
    rfl
  rw [hsum, Nat.add_comm, ← Finset.card_insert_of_notMem hself]
  refine Finset.card_le_card fun other hother => ?_
  rw [Finset.mem_filter]
  rcases Finset.mem_insert.mp hother with rfl | hmem
  · exact ⟨(mem_places _ _).mpr hplace, List.prefix_rfl⟩
  · obtain ⟨name, -, hmem⟩ := Finset.mem_biUnion.mp hmem
    obtain ⟨hmem, hwithin⟩ := Finset.mem_filter.mp hmem
    exact ⟨hmem, (List.prefix_append _ _).trans hwithin⟩

/-! ## Copies -/

/-- A directory with these things in it and no others, each at its place. -/
structure Standing (find : List κ → Option (TreeItem ν)) (items : List (List κ × TreeItem ν)) :
    Prop where
  directory : find [] = some .directory
  exact : ∀ place item, place ≠ [] → (find place = some item ↔ (place, item) ∈ items)

/-- Things that can be created one after another where some are there already. -/
def Creatable (done : List (List κ × TreeItem ν)) : List (List κ × TreeItem ν) → Prop
  | [] => True
  | (place, item) :: rest =>
      place ≠ [] ∧ (place.dropLast = [] ∨ (place.dropLast, .directory) ∈ done) ∧
        (∀ old ∈ done, old.1 ≠ place) ∧ Creatable ((place, item) :: done) rest

/-- The next thing can be created. -/
theorem Standing.create {base : List κ} {done rest : List (List κ × TreeItem ν)}
    {item : TreeItem ν} (h : Standing (fun other => tree.find (base ++ other)) done)
    (hcreatable : Creatable done ((place ++ [name], item) :: rest)) :
    ∃ tree', tree.create (base ++ place) name item = some tree' ∧
      Standing (fun other => tree'.find (base ++ other)) ((place ++ [name], item) :: done) := by
  obtain ⟨hne, hplace, hnew, -⟩ := hcreatable
  rw [List.dropLast_concat] at hplace
  have hdirectory : tree.find (base ++ place) = some .directory := by
    rcases eq_or_ne place [] with rfl | hinner
    · exact h.directory
    · exact (h.exact place .directory hinner).mpr (hplace.resolve_left hinner)
  have hvacant : tree.find (base ++ place ++ [name]) = none := by
    rw [List.append_assoc]
    cases hfind : tree.find (base ++ (place ++ [name])) with
    | none => rfl
    | some old => exact absurd rfl (hnew _ ((h.exact _ old hne).mp hfind))
  obtain ⟨tree', hcreate⟩ : ∃ tree', tree.create _ name item = some tree' :=
    create_isSome hdirectory hvacant
  obtain ⟨-, -, hfind⟩ := create_eq_some hcreate
  rw [List.append_assoc] at hfind
  refine ⟨tree', hcreate, ?_, fun other found hother => ?_⟩
  · show tree'.find (base ++ []) = _
    rw [hfind, if_neg]
    · exact h.directory
    · exact fun heq => hne (List.append_cancel_left heq).symm
  · show tree'.find (base ++ other) = some found ↔ _
    rw [hfind, List.mem_cons, Prod.mk.injEq]
    rcases eq_or_ne other (place ++ [name]) with rfl | hdiffer
    · rw [if_pos rfl]
      constructor
      · exact fun heq => .inl ⟨rfl, (Option.some.inj heq).symm⟩
      · rintro (⟨-, rfl⟩ | hold)
        · rfl
        · exact absurd rfl (hnew _ hold)
    · rw [if_neg fun heq => hdiffer (List.append_cancel_left heq), h.exact other found hother,
        or_iff_right fun heq => hdiffer heq.1]

/-! ## Recursive removal -/

/-- A directory that is being removed: it is to be listed, or the names are to be visited. -/
inductive Frame (κ : Type) where
  | opening (place : List κ)
  | within (place : List κ) (names : List κ)
deriving DecidableEq

/-- The directory of a frame. -/
def Frame.location : Frame κ → List κ
  | .opening place => place
  | .within place _ => place

/-- One step of a recursive removal, innermost directory first. A directory that is no longer
there cannot be listed, which ends the removal; where it is, the names may come in any order. -/
def removalStep (tree : DirectoryTree κ ν) (listing : List κ) :
    List (Frame κ) → Option (Option (DirectoryTree κ ν × List (Frame κ)))
  | [] => none
  | .opening place :: rest =>
      if tree.isDirectory place then
        if tree.Lists place listing then some (some (tree, .within place listing :: rest)) else none
      else some none
  | .within place (name :: names) :: rest =>
      if tree.isDirectory (place ++ [name]) then
        some (some (tree, .opening (place ++ [name]) :: .within place names :: rest))
      else some (some (tree.unlink (place ++ [name]), .within place names :: rest))
  | .within place [] :: rest => some (some (tree.rmdir place, rest))

/-- What a removal has yet to visit. -/
def Frame.Covers : Frame κ → List κ → Prop
  | .opening place, other => place <+: other
  | .within place names, other => other = place ∨ ∃ name ∈ names, place ++ [name] <+: other

/-- A removal of the tree at a place, on its way. -/
structure Sweeping (tree : DirectoryTree κ ν) (top : List κ) (frames : List (Frame κ)) :
    Prop where
  inside : ∀ frame ∈ frames, top <+: frame.location
  nested : frames.Pairwise fun upper lower =>
    lower.location.length < upper.location.length ∧ ∃ names, lower = .within lower.location names
  directories : ∀ frame ∈ frames, ∀ contents, tree.find frame.location ≠ some (.file contents)
  covered : ∀ other, top <+: other → tree.find other ≠ none →
    ∃ frame ∈ frames, frame.Covers other

variable {top listing : List κ} {frames frames' : List (Frame κ)}

/-- A step takes at most one thing off the tree. -/
theorem removal_discards (hinside : ∀ frame ∈ frames, top <+: frame.location)
    (h : tree.removalStep listing frames = some (some (tree', frames'))) :
    (∃ place, top <+: place ∧ Discarded tree tree' place) ∧
      ∀ frame ∈ frames', top <+: frame.location := by
  rw [removalStep.eq_def] at h
  split at h
  · cases h
  · rename_i place rest
    have hplace : top <+: place := hinside _ List.mem_cons_self
    split at h
    · split at h
      · cases h
        refine ⟨⟨place, hplace, discarded_refl tree place⟩, fun frame hframe => ?_⟩
        rcases List.mem_cons.mp hframe with rfl | hframe
        · exact hplace
        · exact hinside frame (List.mem_cons_of_mem _ hframe)
      · cases h
    · cases h
  · rename_i place name names rest
    have hplace : top <+: place := hinside (.within place (name :: names)) List.mem_cons_self
    have hname : top <+: place ++ [name] := hplace.trans (List.prefix_append _ _)
    split at h
    · cases h
      refine ⟨⟨place, hplace, discarded_refl tree place⟩, fun frame hframe => ?_⟩
      rcases List.mem_cons.mp hframe with rfl | hframe
      · exact hname
      · rcases List.mem_cons.mp hframe with rfl | hframe
        · exact hplace
        · exact hinside frame (List.mem_cons_of_mem _ hframe)
    · cases h
      refine ⟨⟨_, hname, unlink_discarded tree _⟩, fun frame hframe => ?_⟩
      rcases List.mem_cons.mp hframe with rfl | hframe
      · exact hplace
      · exact hinside frame (List.mem_cons_of_mem _ hframe)
  · rename_i place rest
    cases h
    exact ⟨⟨place, hinside (.within place []) List.mem_cons_self, rmdir_discarded tree place⟩,
      fun frame hframe => hinside frame (List.mem_cons_of_mem _ hframe)⟩

/-- The removal of a directory as it begins. -/
theorem sweeping_start (h : tree.find top = some .directory) :
    Sweeping tree top [.opening top] where
  inside frame hframe := by
    rw [List.mem_singleton.mp hframe]
    exact List.prefix_rfl
  nested := List.pairwise_singleton _ _
  directories frame hframe contents hfile := by
    rw [List.mem_singleton.mp hframe] at hfile
    exact absurd (h.symm.trans hfile) (by simp)
  covered other hother _ := ⟨_, List.mem_singleton.mpr rfl, hother⟩

/-- Nothing is left of what has been removed. -/
theorem Sweeping.done (h : Sweeping tree top []) : tree.find top = none := by
  by_contra hfound
  obtain ⟨frame, hframe, -⟩ := h.covered top List.prefix_rfl hfound
  exact List.not_mem_nil hframe

/-- Others may take something off the tree meanwhile. -/
theorem Sweeping.shrink (h : Sweeping tree top frames)
    (hfewer : ∀ other, top <+: other → tree'.find other = tree.find other ∨
      tree'.find other = none) : Sweeping tree' top frames where
  inside := h.inside
  nested := h.nested
  directories frame hframe contents hfile := by
    rcases hfewer frame.location (h.inside frame hframe) with hsame | hnone
    · exact h.directories frame hframe contents (hsame.symm.trans hfile)
    · rw [hnone] at hfile
      cases hfile
  covered other hother hfound := by
    rcases hfewer other hother with hsame | hnone
    · exact h.covered other hother (by rwa [← hsame])
    · exact absurd hnone hfound

/-- A listed directory covers everything below it. -/
theorem listing_covers (hlisting : tree.Lists place listing) (hother : place <+: other)
    (hfound : tree.find other ≠ none) : (Frame.within place listing).Covers other := by
  obtain ⟨rest, rfl⟩ := hother
  cases rest with
  | nil => exact .inl (List.append_nil place)
  | cons name rest =>
      have hchain : place ++ name :: rest = place ++ [name] ++ rest := by simp
      refine .inr ⟨name, hlisting.mem.mpr ?_, rest, hchain.symm⟩
      rcases eq_or_ne rest [] with rfl | hne
      · exact hfound
      · rw [hchain] at hfound
        rw [find_above hfound hne]
        exact Option.some_ne_none _

omit [DecidableEq κ] in
/-- What is in a directory is covered from outside only together with the directory. -/
theorem covers_above {frame : Frame κ} (hframe : ∃ names, frame = .within frame.location names)
    (hlength : frame.location.length < place.length) (h : frame.Covers (place ++ [name])) :
    frame.Covers place := by
  obtain ⟨names, hnames⟩ := hframe
  rw [hnames] at h ⊢
  rcases h with heq | ⟨inner, hinner, hwithin⟩
  · have := congrArg List.length heq
    rw [List.length_append] at this
    omega
  · exact .inr ⟨inner, hinner, List.prefix_of_prefix_length_le hwithin (List.prefix_append _ _)
      (by rw [List.length_append, List.length_singleton]; omega)⟩

/-- A step of a removal leaves less to visit, and misses nothing. -/
theorem Sweeping.step (h : Sweeping tree top frames) (htop : top ≠ [])
    (hstep : tree.removalStep listing frames = some (some (tree', frames'))) :
    Sweeping tree' top frames' := by
  rw [removalStep.eq_def] at hstep
  split at hstep
  · cases hstep
  · rename_i place rest
    split at hstep
    · split at hstep
      · rename_i hlisting
        cases hstep
        refine ⟨?_, ?_, ?_, fun other hother hfound => ?_⟩
        · exact fun frame hframe => (List.mem_cons.mp hframe).elim
            (fun heq => heq ▸ h.inside (.opening place) List.mem_cons_self)
            fun hmem => h.inside frame (List.mem_cons_of_mem _ hmem)
        · exact List.pairwise_cons.mpr (List.pairwise_cons.mp h.nested)
        · exact fun frame hframe => (List.mem_cons.mp hframe).elim
            (fun heq => heq ▸ h.directories (.opening place) List.mem_cons_self)
            fun hmem => h.directories frame (List.mem_cons_of_mem _ hmem)
        · obtain ⟨frame, hframe, hcovers⟩ := h.covered other hother hfound
          rcases List.mem_cons.mp hframe with rfl | hmem
          · exact ⟨_, List.mem_cons_self, listing_covers hlisting hcovers hfound⟩
          · exact ⟨frame, List.mem_cons_of_mem _ hmem, hcovers⟩
      · cases hstep
    · cases hstep
  · rename_i place name names rest
    have hinside := h.inside (.within place (name :: names)) List.mem_cons_self
    have houter : ∀ lower ∈ rest,
        lower.location.length < place.length ∧ ∃ names, lower = .within lower.location names :=
      (List.pairwise_cons.mp h.nested).1
    have hrest := (List.pairwise_cons.mp h.nested).2
    split at hstep
    · rename_i hdirectory
      cases hstep
      refine ⟨?_, ?_, ?_, fun other hother hfound => ?_⟩
      · intro frame hframe
        rcases List.mem_cons.mp hframe with rfl | hframe
        · exact hinside.trans (List.prefix_append _ _)
        · exact (List.mem_cons.mp hframe).elim (fun heq => heq ▸ hinside)
            fun hmem => h.inside frame (List.mem_cons_of_mem _ hmem)
      · have hlonger : place.length < (place ++ [name]).length := by simp
        refine List.pairwise_cons.mpr
          ⟨fun lower hlower => ?_, List.pairwise_cons.mpr ⟨houter, hrest⟩⟩
        rcases List.mem_cons.mp hlower with rfl | hlower
        · exact ⟨hlonger, names, rfl⟩
        · exact ⟨(houter lower hlower).1.trans hlonger, (houter lower hlower).2⟩
      · intro frame hframe contents
        rcases List.mem_cons.mp hframe with rfl | hframe
        · show tree.find (place ++ [name]) ≠ _
          rw [is_directory_iff.mp hdirectory]
          simp
        · exact (List.mem_cons.mp hframe).elim
            (fun heq => heq ▸ h.directories (.within place (name :: names)) List.mem_cons_self
              contents)
            fun hmem => h.directories frame (List.mem_cons_of_mem _ hmem) contents
      · obtain ⟨frame, hframe, hcovers⟩ := h.covered other hother hfound
        rcases List.mem_cons.mp hframe with rfl | hmem
        · rcases hcovers with heq | ⟨inner, hinner, hwithin⟩
          · exact ⟨_, List.mem_cons_of_mem _ List.mem_cons_self, .inl heq⟩
          · rcases List.mem_cons.mp hinner with rfl | hinner
            · exact ⟨_, List.mem_cons_self, hwithin⟩
            · exact ⟨_, List.mem_cons_of_mem _ List.mem_cons_self, .inr ⟨inner, hinner, hwithin⟩⟩
        · exact ⟨frame, List.mem_cons_of_mem _ (List.mem_cons_of_mem _ hmem), hcovers⟩
    · rename_i hother
      cases hstep
      have hroot : place ++ [name] ≠ [] :=
        List.append_ne_nil_of_right_ne_nil _ (List.cons_ne_nil _ _)
      have hgone := find_unlink hroot (Bool.not_eq_true _ ▸ hother)
      have hdiscarded := unlink_discarded tree (place ++ [name])
      have hfewer : ∀ other, (tree.unlink (place ++ [name])).find other = tree.find other ∨
          (tree.unlink (place ++ [name])).find other = none := fun other =>
        (eq_or_ne other (place ++ [name])).elim (fun heq => .inr (heq ▸ hgone))
          fun hne => .inl (hdiscarded.same other hne)
      have hshrunk := h.shrink fun other _ => hfewer other
      refine ⟨?_, List.pairwise_cons.mpr ⟨houter, hrest⟩, ?_, fun other htop hfound => ?_⟩
      · exact fun frame hframe => (List.mem_cons.mp hframe).elim (fun heq => heq ▸ hinside)
          fun hmem => h.inside frame (List.mem_cons_of_mem _ hmem)
      · exact fun frame hframe => (List.mem_cons.mp hframe).elim
          (fun heq => heq ▸ hshrunk.directories (.within place (name :: names)) List.mem_cons_self)
          fun hmem => hshrunk.directories frame (List.mem_cons_of_mem _ hmem)
      · obtain ⟨frame, hframe, hcovers⟩ := hshrunk.covered other htop hfound
        rcases List.mem_cons.mp hframe with rfl | hmem
        · refine ⟨_, List.mem_cons_self, ?_⟩
          rcases hcovers with heq | ⟨inner, hinner, hwithin⟩
          · exact .inl heq
          · rcases List.mem_cons.mp hinner with rfl | hinner
            · -- nothing is below what has been unlinked
              rcases eq_or_ne (place ++ [inner]) other with rfl | hne
              · exact absurd hgone hfound
              · rw [find_ancestor hwithin hfound hne] at hgone
                cases hgone
            · exact .inr ⟨inner, hinner, hwithin⟩
        · exact ⟨frame, List.mem_cons_of_mem _ hmem, hcovers⟩
  · rename_i place rest
    cases hstep
    have hinside := h.inside (.within place []) List.mem_cons_self
    have hplace : place ≠ [] := fun hnil => htop (List.prefix_nil.mp (hnil ▸ hinside))
    have hdiscarded := rmdir_discarded tree place
    have houter : ∀ lower ∈ frames',
        lower.location.length < place.length ∧ ∃ names, lower = .within lower.location names :=
      (List.pairwise_cons.mp h.nested).1
    have hshrunk : Sweeping (tree.rmdir place) top (.within place [] :: frames') :=
      h.shrink fun other _ => (eq_or_ne other place).elim (fun heq => heq ▸ hdiscarded.fewer)
        fun hne => .inl (hdiscarded.same other hne)
    have hcovered : ∀ other, top <+: other → (tree.rmdir place).find other ≠ none →
        other ≠ place → ∃ frame ∈ frames', frame.Covers other := by
      intro other hother hfound hne
      obtain ⟨frame, hframe, hcovers⟩ := hshrunk.covered other hother hfound
      rcases List.mem_cons.mp hframe with rfl | hmem
      · rcases hcovers with heq | ⟨_, hnone, _⟩
        · exact absurd heq hne
        · exact absurd hnone List.not_mem_nil
      · exact ⟨frame, hmem, hcovers⟩
    refine ⟨fun frame hmem => hshrunk.inside frame (List.mem_cons_of_mem _ hmem),
      (List.pairwise_cons.mp h.nested).2,
      fun frame hmem => hshrunk.directories frame (List.mem_cons_of_mem _ hmem),
      fun other hother hfound => ?_⟩
    rcases eq_or_ne other place with rfl | hne
    · -- what is left in the directory is left to a frame that covers the directory too
      have hdirectory : tree.find other = some .directory := by
        cases hfind : tree.find other with
        | none => exact absurd (hdiscarded.fewer.elim (·.trans hfind) id) hfound
        | some item =>
            cases item with
            | directory => rfl
            | file contents =>
                exact absurd hfind
                  (h.directories (.within other []) List.mem_cons_self contents)
      obtain ⟨name, hname⟩ := find_rmdir hplace hdirectory hfound
      obtain ⟨frame, hframe, hcovers⟩ :=
        hcovered (other ++ [name]) (hother.trans (List.prefix_append _ _)) hname (by simp)
      exact ⟨frame, hframe, covers_above (houter frame hframe).2 (houter frame hframe).1 hcovers⟩
    · exact hcovered other hother hfound hne

/-! ## The end of a removal -/

/-- The steps that are left for a frame, at most. -/
def frameCost (tree : DirectoryTree κ ν) : Frame κ → Nat
  | .opening place => 3 * tree.size place - 1
  | .within place names => 1 + (names.map fun name => max 1 (3 * tree.size (place ++ [name]))).sum

/-- The steps that are left for a removal, at most. -/
def cost (tree : DirectoryTree κ ν) (frames : List (Frame κ)) : Nat :=
  (frames.map tree.frameCost).sum

theorem cost_cons (frame : Frame κ) (frames : List (Frame κ)) :
    tree.cost (frame :: frames) = tree.frameCost frame + tree.cost frames := by
  rw [cost, List.map_cons, List.sum_cons, cost]

theorem frame_cost_cons (place : List κ) (name : κ) (names : List κ) :
    tree.frameCost (.within place (name :: names)) =
      max 1 (3 * tree.size (place ++ [name])) + tree.frameCost (.within place names) := by
  rw [frameCost, frameCost, List.map_cons, List.sum_cons]
  omega

/-- Nothing is left to do where something has been taken off. -/
theorem cost_mono (h : ∀ frame ∈ frames, ∀ other, frame.location <+: other →
    tree'.find other ≠ none → tree.find other ≠ none) : tree'.cost frames ≤ tree.cost frames := by
  refine List.sum_le_sum fun frame hframe => ?_
  cases frame with
  | opening place =>
      have := size_mono (h _ hframe)
      show 3 * tree'.size place - 1 ≤ 3 * tree.size place - 1
      have hsize : tree'.size place ≤ tree.size place := this
      omega
  | within place names =>
      refine Nat.add_le_add_left (List.sum_le_sum fun name _ => ?_) 1
      have hsize : tree'.size (place ++ [name]) ≤ tree.size (place ++ [name]) :=
        size_mono fun other hother => h _ hframe other ((List.prefix_append _ _).trans hother)
      omega

theorem cost_discarded (h : Discarded tree tree' place) (frames : List (Frame κ)) :
    tree'.cost frames ≤ tree.cost frames := by
  refine cost_mono fun _ _ other _ hfound hnone => hfound ?_
  rcases eq_or_ne other place with rfl | hne
  · rcases h.fewer with hsame | hgone
    · exact hsame.trans hnone
    · exact hgone
  · exact (h.same other hne).trans hnone

/-- Every step of a removal brings it nearer to its end. -/
theorem removal_cost (h : tree.removalStep listing frames = some (some (tree', frames'))) :
    tree'.cost frames' < tree.cost frames := by
  rw [removalStep.eq_def] at h
  split at h
  · cases h
  · rename_i place rest
    split at h
    · rename_i hdirectory
      split at h
      · rename_i hlisting
        cases h
        rw [cost_cons, cost_cons, Nat.add_lt_add_iff_right]
        have hfound : tree.find place ≠ none := by
          rw [is_directory_iff.mp hdirectory]
          exact Option.some_ne_none _
        have hsize := size_children hfound hlisting.1
        have hsum : (listing.map fun name => max 1 (3 * tree.size (place ++ [name]))).sum ≤
            3 * (listing.map fun name => tree.size (place ++ [name])).sum := by
          rw [← List.sum_map_mul_left]
          refine List.sum_le_sum fun name hname => max_le ?_ le_rfl
          have hone := size_children (hlisting.mem.mp hname) List.nodup_nil
          rw [List.map_nil, List.sum_nil] at hone
          omega
        show 1 + (listing.map fun name => max 1 (3 * tree.size (place ++ [name]))).sum <
          3 * tree.size place - 1
        omega
      · cases h
    · cases h
  · rename_i place name names rest
    rw [cost_cons, frame_cost_cons]
    split at h
    · cases h
      rw [cost_cons, cost_cons]
      have hstep : tree.frameCost (.opening (place ++ [name])) <
          max 1 (3 * tree.size (place ++ [name])) := by
        rw [frameCost]
        omega
      omega
    · cases h
      have hless := cost_discarded (unlink_discarded tree (place ++ [name]))
        (.within place names :: rest)
      have hcost : tree.cost (.within place names :: rest) =
          tree.frameCost (.within place names) + tree.cost rest := cost_cons _ _
      omega
  · rename_i place rest
    cases h
    have hless := cost_discarded (rmdir_discarded tree place) frames'
    rw [cost_cons, frameCost]
    omega

end DirectoryTree

end Foundations
