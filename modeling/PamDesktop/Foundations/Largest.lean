import Mathlib.Data.Finset.Card
import Mathlib.Data.Finset.Max
import Mathlib.Data.List.Sort

/-!
# Keeping the largest

Of a collection only the `kept` items with the largest keys are to stay. What is above an item of
the collection decides: `Outranked` says that enough is. A removal that sees a part of the
collection takes the smallest of what it sees (`excess`); that is never too much, and it is enough
as soon as the part holds all that is not outranked.
-/

namespace Foundations.Largest

variable {α ν : Type} [LinearOrder ν]

/-- At least `kept` of the items are above this one. -/
def Outranked (kept : Nat) (key : α → ν) (items : Finset α) (item : α) : Prop :=
  kept ≤ (items.filter fun other => key item < key other).card

instance (kept : Nat) (key : α → ν) (items : Finset α) (item : α) :
    Decidable (Outranked kept key items item) :=
  inferInstanceAs (Decidable (_ ≤ _))

/-- The smallest of what is listed, all but `kept` of it. -/
def excess (kept : Nat) (key : α → ν) (listed : List α) : List α :=
  (listed.mergeSort fun left right => decide (key left ≤ key right)).take (listed.length - kept)

variable {kept : Nat} {key : α → ν} {items all : Finset α} {item other : α}

/-- With more items there are no fewer above one. -/
theorem Outranked.mono (h : Outranked kept key items item) (hsubset : items ⊆ all) :
    Outranked kept key all item :=
  Nat.le_trans h (Finset.card_le_card (Finset.filter_subset_filter _ hsubset))

/-- What is below an outranked item is outranked. -/
theorem Outranked.of_le (h : Outranked kept key items item) (hle : key other ≤ key item) :
    Outranked kept key items other := by
  refine Nat.le_trans h (Finset.card_le_card ?_)
  intro above habove
  rw [Finset.mem_filter] at habove ⊢
  exact ⟨habove.1, hle.trans_lt habove.2⟩

/-- An item that is outranked is so by items that are not. -/
theorem Outranked.by_leading [DecidableEq α] (h : Outranked kept key all item)
    (hleading : ∀ other ∈ all, ¬ Outranked kept key all other → other ∈ items) :
    Outranked kept key items item := by
  by_contra hfew
  -- the largest item above this one that is missing among the `items`
  have hmissing : ((all.filter fun other => key item < key other) \ items).Nonempty := by
    rw [Finset.nonempty_iff_ne_empty]
    intro hempty
    refine hfew (Nat.le_trans h (Finset.card_le_card ?_))
    intro other hother
    rw [Finset.mem_filter]
    exact ⟨Finset.sdiff_eq_empty_iff_subset.mp hempty hother, (Finset.mem_filter.mp hother).2⟩
  obtain ⟨first, hfirst, hmax⟩ := Finset.exists_max_image _ key hmissing
  rw [Finset.mem_sdiff, Finset.mem_filter] at hfirst
  refine hfirst.2 (hleading first hfirst.1.1 fun houtranked => hfew ?_)
  refine Nat.le_trans houtranked (Finset.card_le_card ?_)
  intro other hother
  rw [Finset.mem_filter] at hother ⊢
  have habove : key item < key other := hfirst.1.2.trans hother.2
  refine ⟨?_, habove⟩
  by_contra hnot
  have hle := hmax other (Finset.mem_sdiff.mpr ⟨Finset.mem_filter.mpr ⟨hother.1, habove⟩, hnot⟩)
  exact absurd hother.2 (not_lt.mpr hle)

/-- No more than `kept` items are not outranked. -/
theorem card_leading_le [DecidableEq α] (hkey : Function.Injective key) (kept : Nat)
    (items : Finset α) :
    (items.filter fun item => ¬ Outranked kept key items item).card ≤ kept := by
  by_contra hmany
  have hnonempty : (items.filter fun item => ¬ Outranked kept key items item).Nonempty := by
    rw [← Finset.card_pos]
    omega
  obtain ⟨least, hleast, hmin⟩ := Finset.exists_min_image _ key hnonempty
  refine (Finset.mem_filter.mp hleast).2 ?_
  have herase := Finset.card_erase_of_mem hleast
  have hsubset : (items.filter fun item => ¬ Outranked kept key items item).erase least ⊆
      items.filter fun other => key least < key other := by
    intro other hother
    obtain ⟨hne, hmem⟩ := Finset.mem_erase.mp hother
    exact Finset.mem_filter.mpr
      ⟨(Finset.mem_filter.mp hmem).1,
        lt_of_le_of_ne (hmin other hmem) fun heq => hne (hkey heq).symm⟩
  have hcard := Finset.card_le_card hsubset
  unfold Outranked
  omega

section Excess

variable {listed : List α}

/-- What is listed, in order and cut where the removal stops. -/
theorem excess_split (hkey : Function.Injective key) (kept : Nat) (hlisted : listed.Nodup) :
    ∃ rest, (excess kept key listed ++ rest).Perm listed ∧ rest.length = min kept listed.length ∧
      (excess kept key listed ++ rest).Pairwise fun left right => key left < key right := by
  have hperm := List.mergeSort_perm listed fun left right => decide (key left ≤ key right)
  refine ⟨(listed.mergeSort fun left right => decide (key left ≤ key right)).drop
    (listed.length - kept), ?_, ?_, ?_⟩
  · rw [excess, List.take_append_drop]
    exact hperm
  · rw [List.length_drop, hperm.length_eq]
    omega
  · rw [excess, List.take_append_drop]
    have hsorted : (listed.mergeSort fun left right => decide (key left ≤ key right)).Pairwise
        fun left right => key left ≤ key right := by
      refine (List.pairwise_mergeSort (fun first second third h h' => ?_) (fun left right => ?_)
        listed).imp fun h => of_decide_eq_true h
      · rw [decide_eq_true_iff] at h h' ⊢
        exact h.trans h'
      · simpa using le_total (key left) (key right)
    exact (hsorted.and (hperm.nodup_iff.mpr hlisted)).imp fun h =>
      lt_of_le_of_ne h.1 fun heq => h.2 (hkey heq)

theorem mem_listed_of_excess (h : item ∈ excess kept key listed) : item ∈ listed :=
  (List.mergeSort_perm listed _).mem_iff.mp (List.mem_of_mem_take h)

/-- A removal takes what is outranked by the part that it sees, and all of that. -/
theorem mem_excess_iff [DecidableEq α] (hkey : Function.Injective key) (hlisted : listed.Nodup)
    (hitem : item ∈ listed) :
    item ∈ excess kept key listed ↔ Outranked kept key listed.toFinset item := by
  obtain ⟨rest, hperm, hlength, hsorted⟩ := excess_split hkey kept hlisted
  have hmem : ∀ other, other ∈ listed ↔ other ∈ excess kept key listed ∨ other ∈ rest := by
    intro other
    rw [← hperm.mem_iff, List.mem_append]
  have hbelow : ∀ small ∈ excess kept key listed, ∀ large ∈ rest, key small < key large :=
    (List.pairwise_append.mp hsorted).2.2
  have hrest : rest.Nodup :=
    ((List.pairwise_append.mp hsorted).2.1).imp fun h heq => absurd (heq ▸ h) (lt_irrefl _)
  have hcard : rest.toFinset.card = rest.length := List.toFinset_card_of_nodup hrest
  constructor
  · intro hexcess
    have hfull : rest.length = kept := by
      have hpositive := List.length_pos_of_mem hexcess
      have htake : (excess kept key listed).length ≤ listed.length - kept := by
        rw [excess, List.length_take]
        exact Nat.min_le_left _ _
      omega
    refine Nat.le_trans (Nat.le_of_eq (hfull.symm.trans hcard.symm)) (Finset.card_le_card ?_)
    intro other hother
    rw [List.mem_toFinset] at hother
    exact Finset.mem_filter.mpr
      ⟨List.mem_toFinset.mpr ((hmem other).mpr (.inr hother)), hbelow item hexcess other hother⟩
  · intro houtranked
    by_contra hnot
    have hitem' : item ∈ rest := ((hmem item).mp hitem).resolve_left hnot
    have hsubset : (listed.toFinset.filter fun other => key item < key other) ⊆
        rest.toFinset.erase item := by
      intro other hother
      obtain ⟨hlist, hlt⟩ := Finset.mem_filter.mp hother
      refine Finset.mem_erase.mpr
        ⟨fun heq => absurd (heq ▸ hlt) (lt_irrefl _), List.mem_toFinset.mpr ?_⟩
      refine ((hmem other).mp (List.mem_toFinset.mp hlist)).resolve_left fun hexcess => ?_
      exact absurd (hlt.trans (hbelow other hexcess item hitem')) (lt_irrefl _)
    have hless := Finset.card_le_card hsubset
    have herase := Finset.card_erase_lt_of_mem (List.mem_toFinset.mpr hitem')
    unfold Outranked at houtranked
    omega

end Excess

end Foundations.Largest
