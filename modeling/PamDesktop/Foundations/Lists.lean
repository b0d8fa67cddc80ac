import Mathlib.Data.List.DropRight
import Mathlib.Order.Lattice

/-!
# Lists

What is read at an index when there may be no item, where a list is cut when it is cut at the
first item, or after the last, for which a test fails, and what is left of a sorted list without its
first item.
-/

namespace Foundations

variable {α : Type} {test : α → Bool} {front rest : List α}

/-- An item of the list, if the default is one. -/
theorem get_default_mem {items : List α} {default : α} (h : default ∈ items) (index : Nat) :
    items.getD index default ∈ items := by
  rw [List.getD_eq_getElem?_getD]
  cases hitem : items[index]? with
  | none => exact h
  | some item => exact List.mem_of_getElem? hitem

/-- The items that pass, up to one that does not. -/
theorem take_while_append (hfront : ∀ item ∈ front, test item = true)
    (hrest : ∀ item ∈ rest.head?, test item = false) :
    (front ++ rest).takeWhile test = front := by
  rw [List.takeWhile_append_of_pos hfront]
  cases rest with
  | nil => exact List.append_nil front
  | cons item rest => rw [List.takeWhile_cons_of_neg (by simp [hrest item rfl]), List.append_nil]

/-- What is left without the items that pass. -/
theorem drop_while_append (hfront : ∀ item ∈ front, test item = true)
    (hrest : ∀ item ∈ rest.head?, test item = false) :
    (front ++ rest).dropWhile test = rest := by
  rw [List.dropWhile_append_of_pos hfront]
  cases rest with
  | nil => rfl
  | cons item rest => exact List.dropWhile_cons_of_neg (by simp [hrest item rfl])

/-- What is left without the items at the end that pass. -/
theorem rdrop_while_append (hrest : ∀ item ∈ rest, test item = true)
    (hfront : ∀ item ∈ front.getLast?, test item = false) :
    (front ++ rest).rdropWhile test = front := by
  have hdrop : (front ++ rest).rdropWhile test = front.rdropWhile test := by
    rw [List.rdropWhile, List.reverse_append, List.dropWhile_append_of_pos]
    · rfl
    · exact fun item hitem => hrest item (List.mem_reverse.mp hitem)
  rw [hdrop, List.rdropWhile_eq_self_iff]
  intro hne
  simp [hfront _ (List.getLast?_eq_some_getLast hne)]

/-- Sorted from the greatest key down, all but the first are those below another. -/
theorem mem_drop_one_sorted {β : Type} [LinearOrder β] {key : α → β} {items : List α} {item : α}
    (hkeys : (items.map key).Nodup) :
    item ∈ (items.mergeSort fun left right => decide (key right ≤ key left)).drop 1 ↔
      item ∈ items ∧ ∃ other ∈ items, key item < key other := by
  have hperm := List.mergeSort_perm items fun left right => decide (key right ≤ key left)
  have hsorted : (items.mergeSort fun left right => decide (key right ≤ key left)).Pairwise
      fun left right => decide (key right ≤ key left) = true := by
    refine List.pairwise_mergeSort (fun first second third h h' => ?_) (fun left right => ?_) items
    · rw [decide_eq_true_iff] at h h' ⊢
      exact h'.trans h
    · simpa using le_total (key right) (key left)
  have hnodup := (hperm.map key).nodup_iff.mpr hkeys
  have hmem (other : α) : other ∈ items ↔ other ∈ _ := hperm.mem_iff.symm
  simp only [hmem]
  generalize items.mergeSort (fun left right => decide (key right ≤ key left)) = sorted at *
  cases sorted with
  | nil => simp
  | cons head tail =>
      obtain ⟨hhead, -⟩ := List.pairwise_cons.mp hsorted
      obtain ⟨hfresh, -⟩ := List.nodup_cons.mp (by simpa only [List.map_cons] using hnodup)
      have hbelow : ∀ other ∈ tail, key other < key head := by
        intro other hother
        refine lt_of_le_of_ne (by simpa using hhead other hother) fun heq => hfresh ?_
        exact heq ▸ List.mem_map_of_mem hother
      show item ∈ tail ↔ _
      constructor
      · intro hitem
        exact ⟨List.mem_cons_of_mem _ hitem, head, List.mem_cons_self, hbelow item hitem⟩
      · rintro ⟨hitem, other, hother, hlt⟩
        obtain rfl | hitem := List.mem_cons.mp hitem
        · obtain rfl | hother := List.mem_cons.mp hother
          · exact absurd hlt (lt_irrefl _)
          · exact absurd hlt (hbelow other hother).asymm
        · exact hitem

end Foundations
