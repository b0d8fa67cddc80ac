import Mathlib.Data.List.Nodup
import PamDesktop.Foundations.FileTree

/-!
# The regular files of a directory tree

`filesBelow` lists every regular file of a tree with its path. `Node.Distinct` says that the names
in each directory differ, so that a path leads to one file, and `Node.Plain` that the tree has
nothing but regular files and directories, under names of a given kind.
-/

namespace Foundations

/-- A regular file: its path from the root and its contents. -/
abbrev FileAt := List OsString × List UInt8

mutual

/-- Every regular file below these directory entries. -/
def filesBelow : List (OsString × Node) → List FileAt
  | [] => []
  | item :: rest => filesUnder item ++ filesBelow rest
termination_by structural entries => entries

/-- Every regular file at or below a directory entry. -/
def filesUnder : OsString × Node → List FileAt
  | (name, node) => (filesAt node).map fun file => (name :: file.1, file.2)
termination_by structural item => item

/-- Every regular file at or below a node. -/
def filesAt : Node → List FileAt
  | .file bytes => [([], bytes)]
  | .directory entries => filesBelow entries
  | .symlink _ => []
  | .special => []
termination_by structural node => node

end

/-- The names in every directory differ. -/
inductive Node.Distinct : Node → Prop where
  | file (bytes) : Distinct (.file bytes)
  | directory (entries) : (entries.map Prod.fst).Nodup → (∀ item ∈ entries, Distinct item.2) →
      Distinct (.directory entries)
  | symlink (target) : Distinct (.symlink target)
  | special : Distinct .special

/-- Only regular files and directories, under different names of this kind. -/
inductive Node.Plain (valid : OsString → Prop) : Node → Prop where
  | file (bytes) : Plain valid (.file bytes)
  | directory (entries) : (entries.map Prod.fst).Nodup → (∀ item ∈ entries, valid item.1) →
      (∀ item ∈ entries, Plain valid item.2) → Plain valid (.directory entries)

/-- The same of the entries of a directory. -/
structure PlainEntries (valid : OsString → Prop) (entries : List (OsString × Node)) : Prop where
  nodup : (entries.map Prod.fst).Nodup
  names : ∀ item ∈ entries, valid item.1
  plain : ∀ item ∈ entries, item.2.Plain valid

theorem Node.Plain.entries {valid : OsString → Prop} {entries : List (OsString × Node)}
    (h : (Node.directory entries).Plain valid) : PlainEntries valid entries := by
  cases h with
  | directory _ hnodup hvalid hplain => exact ⟨hnodup, hvalid, hplain⟩

theorem PlainEntries.tail {valid : OsString → Prop} {item : OsString × Node}
    {rest : List (OsString × Node)} (h : PlainEntries valid (item :: rest)) :
    PlainEntries valid rest where
  nodup := (List.nodup_cons.mp h.nodup).2
  names other hother := h.names other (List.mem_cons_of_mem _ hother)
  plain other hother := h.plain other (List.mem_cons_of_mem _ hother)

/-- Plain trees have distinct names. -/
theorem Node.Plain.distinct {valid : OsString → Prop} {node : Node} (h : node.Plain valid) :
    node.Distinct := by
  induction h with
  | file bytes => exact .file bytes
  | directory entries hnodup _ _ ih => exact .directory entries hnodup ih

/-- The files below some entries are those at one of them. -/
theorem mem_files_below {entries : List (OsString × Node)} {file : FileAt} :
    file ∈ filesBelow entries ↔
      ∃ item ∈ entries, ∃ inner ∈ filesAt item.2, file = (item.1 :: inner.1, inner.2) := by
  induction entries with
  | nil => simp [filesBelow]
  | cons item rest ih =>
      obtain ⟨name, node⟩ := item
      rw [filesBelow, List.mem_append, ih, filesUnder]
      constructor
      · intro h
        rcases h with h | ⟨other, hother, hfile⟩
        · obtain ⟨inner, hinner, rfl⟩ := List.mem_map.mp h
          exact ⟨(name, node), List.mem_cons_self, inner, hinner, rfl⟩
        · exact ⟨other, List.mem_cons_of_mem _ hother, hfile⟩
      · intro h
        obtain ⟨other, hother, inner, hinner, rfl⟩ := h
        rcases List.mem_cons.mp hother with rfl | hother
        · exact .inl (List.mem_map.mpr ⟨inner, hinner, rfl⟩)
        · exact .inr ⟨other, hother, inner, hinner, rfl⟩

/-- The path of a file starts with the name of an entry. -/
theorem files_below_head {entries : List (OsString × Node)} {path : List OsString}
    (h : path ∈ (filesBelow entries).map Prod.fst) :
    ∃ name ∈ entries.map Prod.fst, ∃ rest, path = name :: rest := by
  obtain ⟨file, hfile, rfl⟩ := List.mem_map.mp h
  obtain ⟨item, hitem, inner, -, rfl⟩ := mem_files_below.mp hfile
  exact ⟨item.1, List.mem_map_of_mem hitem, inner.1, rfl⟩

mutual

/-- A path leads to one file. -/
theorem files_below_nodup : ∀ {entries : List (OsString × Node)},
    (entries.map Prod.fst).Nodup → (∀ item ∈ entries, item.2.Distinct) →
      ((filesBelow entries).map Prod.fst).Nodup
  | [], _, _ => List.nodup_nil
  | item :: rest, hnodup, hdistinct => by
      have hitem := files_under_nodup (hdistinct item List.mem_cons_self)
      have hrest := files_below_nodup (List.nodup_cons.mp hnodup).2
        fun other hother => hdistinct other (List.mem_cons_of_mem _ hother)
      rw [filesBelow, List.map_append]
      refine List.nodup_append.mpr ⟨hitem, hrest, ?_⟩
      intro path hpath other hother heq
      obtain ⟨file, hfile, rfl⟩ := List.mem_map.mp hpath
      rw [filesUnder] at hfile
      obtain ⟨inner, -, rfl⟩ := List.mem_map.mp hfile
      obtain ⟨name, hname, tail, rfl⟩ := files_below_head hother
      cases heq
      exact (List.nodup_cons.mp hnodup).1 hname

theorem files_under_nodup : ∀ {item : OsString × Node}, item.2.Distinct →
    ((filesUnder item).map Prod.fst).Nodup
  | (name, node), hdistinct => by
      have hnode := files_at_nodup hdistinct
      rw [filesUnder, List.map_map]
      have hmap : (Prod.fst ∘ fun file : FileAt => (name :: file.1, file.2)) =
          List.cons name ∘ Prod.fst := rfl
      rw [hmap, ← List.map_map]
      exact List.Nodup.map List.cons_injective hnode

theorem files_at_nodup : ∀ {node : Node}, node.Distinct → ((filesAt node).map Prod.fst).Nodup
  | .file bytes, _ => by simp [filesAt]
  | .directory entries, hdistinct => by
      rw [filesAt]
      cases hdistinct with
      | directory _ hnodup hinner => exact files_below_nodup hnodup hinner
  | .symlink _, _ => List.nodup_nil
  | .special, _ => List.nodup_nil

end

/-- Every component of a path in a plain tree is a valid name. -/
theorem Node.Plain.names_valid {valid : OsString → Prop} {node : Node} (h : node.Plain valid) :
    ∀ file ∈ filesAt node, ∀ name ∈ file.1, valid name := by
  induction h with
  | file bytes =>
      intro file hfile name hname
      obtain rfl : file = ([], bytes) := by simpa [filesAt] using hfile
      cases hname
  | directory entries _ hvalid _ ih =>
      intro file hfile name hname
      rw [filesAt] at hfile
      obtain ⟨item, hitem, inner, hinner, rfl⟩ := mem_files_below.mp hfile
      rcases List.mem_cons.mp hname with rfl | hname
      · exact hvalid item hitem
      · exact ih item hitem inner hinner name hname

end Foundations
