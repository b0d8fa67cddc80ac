import Mathlib.Data.List.DropRight
import Mathlib.Order.Lattice

/-!
# Samples

The last samples of a stream are kept in a queue, and one of them is picked by its rank.
`exceeds_iff` says how many of them are above a bound when that one is.
-/

namespace Foundations.Samples

variable {α : Type}

/-- Take in a sample. A full queue loses its oldest. -/
def record (limit : Nat) (samples : List α) (value : α) : List α :=
  (if samples.length = limit then samples.drop 1 else samples) ++ [value]

theorem record_rtake {limit : Nat} (hlimit : 0 < limit) (values : List α) (value : α) :
    record limit (values.rtake limit) value = (values ++ [value]).rtake limit := by
  have hlength : (values.rtake limit).length = min limit values.length := by
    rw [List.rtake, List.length_drop]
    omega
  unfold record
  rw [hlength, List.rtake, List.rtake, List.length_append, List.length_singleton]
  by_cases hfull : limit ≤ values.length
  · rw [if_pos (by omega), List.drop_drop, List.drop_append_of_le_length (by omega)]
    congr 2
    omega
  · rw [if_neg (by omega), List.drop_append_of_le_length (by omega)]
    congr 2
    omega

variable [LinearOrder α]

/-- The sample of a rank, from the smallest on. -/
def rank (samples : List α) (index : Nat) : Option α :=
  (samples.mergeSort fun left right => decide (left ≤ right))[index]?

theorem sorted_exceeds_iff {samples : List α} (hsorted : samples.Pairwise (· ≤ ·)) (bound : α)
    (index : Nat) :
    (∃ value, samples[index]? = some value ∧ bound < value) ↔
      index < samples.length ∧ samples.countP (fun value => decide (value ≤ bound)) ≤ index := by
  induction samples generalizing index with
  | nil => simp
  | cons head tail ih =>
      obtain ⟨hhead, htail⟩ := List.pairwise_cons.mp hsorted
      have hnone (habove : bound < head) :
          tail.countP (fun value => decide (value ≤ bound)) = 0 := by
        rw [List.countP_eq_zero]
        intro value hvalue
        simpa using habove.trans_le (hhead value hvalue)
      cases index with
      | zero =>
          by_cases habove : bound < head
          · simp [habove, hnone habove]
          · simp [habove, not_lt.mp habove]
      | succ index =>
          rw [List.getElem?_cons_succ, ih htail, List.length_cons, List.countP_cons]
          by_cases habove : bound < head
          · simp [hnone habove, not_le.mpr habove]
          · simp [not_lt.mp habove]

/-- The sample of a rank is above a bound where so many samples are that no more than the rank are
left. -/
theorem exceeds_iff (samples : List α) (bound : α) (index : Nat) :
    (∃ value, rank samples index = some value ∧ bound < value) ↔
      index < samples.length ∧
        samples.length ≤ index + samples.countP (fun value => decide (bound < value)) := by
  have hperm := List.mergeSort_perm samples fun left right => decide (left ≤ right)
  have hsorted : (samples.mergeSort fun left right => decide (left ≤ right)).Pairwise
      (· ≤ ·) := by
    refine (List.pairwise_mergeSort (fun first second third h h' => ?_) (fun left right => ?_)
      samples).imp fun h => of_decide_eq_true h
    · rw [decide_eq_true_iff] at h h' ⊢
      exact h.trans h'
    · simpa using le_total left right
  have hcount : samples.length = samples.countP (fun value => decide (bound < value)) +
      samples.countP (fun value => decide (value ≤ bound)) := by
    rw [List.length_eq_countP_add_countP (fun value => decide (bound < value))]
    congr 2
    funext value
    simp
  unfold rank
  rw [sorted_exceeds_iff hsorted, hperm.length_eq, hperm.countP_eq]
  omega

end Foundations.Samples
