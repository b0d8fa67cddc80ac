import Mathlib.Data.Fintype.Pigeonhole
import Mathlib.Data.List.Perm.Basic

/-!
# Parent links

Every element has at most one parent. `climb` follows parent links, `Acyclic` says that no chain
of them returns, and `ParentsFirst` that a list names every parent before its children. A finite
set of elements with acyclic links has an element to start with (`Acyclic.exists_first`), and
links are acyclic wherever a list with parents first exists (`ParentsFirst.acyclic`).
-/

namespace Foundations

variable {α : Type} (parent : α → Option α)

/-- Follow so many parent links; `none` past the end of the chain. -/
def climb : Nat → α → Option α
  | 0, a => some a
  | n + 1, a => (parent a).bind (climb n)

/-- No chain of parent links returns to its start. -/
def Acyclic : Prop := ∀ a n, climb parent (n + 1) a ≠ some a

/-- Follow parent links to the end of the chain, but at most so many of them. -/
def followParents : Nat → α → α
  | 0, a => a
  | n + 1, a =>
      match parent a with
      | some p => followParents n p
      | none => a

/-- Every parent of a listed element is listed before it. -/
def ParentsFirst (xs : List α) : Prop :=
  ∀ (i : Nat) (a p : α), xs[i]? = some a → parent a = some p →
    ∃ j : Nat, j < i ∧ xs[j]? = some p

variable {parent}

/-- A chain of links in two parts. -/
theorem climb_add (m n : Nat) (a : α) :
    climb parent (m + n) a = (climb parent m a).bind (climb parent n) := by
  induction m generalizing a with
  | zero => simp [climb]
  | succ m ih =>
      rw [Nat.succ_add, climb, climb, Option.bind_assoc]
      congr 1
      funext b
      exact ih b

/-- One more link at the end of a chain. -/
theorem climb_succ (n : Nat) (a : α) :
    climb parent (n + 1) a = (climb parent n a).bind parent := by
  rw [climb_add]
  congr 1
  funext b
  simp [climb]

/-- A chain that has ended has ended for good. -/
theorem climb_none {m n : Nat} {a : α} (h : climb parent m a = none) (hle : m ≤ n) :
    climb parent n a = none := by
  obtain ⟨k, rfl⟩ := Nat.exists_eq_add_of_le hle
  rw [climb_add, h]
  rfl

/-- A chain from a set closed under parents stays in it. -/
theorem climb_mem {xs : List α} (hclosed : ∀ a ∈ xs, ∀ p, parent a = some p → p ∈ xs) {a b : α}
    (ha : a ∈ xs) {n : Nat} (h : climb parent n a = some b) : b ∈ xs := by
  induction n generalizing a with
  | zero =>
      obtain rfl : a = b := by simpa [climb] using h
      exact ha
  | succ n ih =>
      obtain ⟨p, hparent, h⟩ := Option.bind_eq_some_iff.mp h
      exact ih (hclosed a ha p hparent) h

/-- A chain that is as long as a finite set closed under parents visits some element twice. -/
theorem climb_repeats [DecidableEq α] {xs : List α}
    (hclosed : ∀ a ∈ xs, ∀ p, parent a = some p → p ∈ xs) {a b : α} (ha : a ∈ xs)
    (h : climb parent xs.length a = some b) :
    ∃ i n c, i + (n + 1) ≤ xs.length ∧ climb parent i a = some c ∧
      climb parent (n + 1) c = some c := by
  have hvisited : ∀ i ≤ xs.length, ∃ c ∈ xs, climb parent i a = some c := by
    intro i hi
    cases hc : climb parent i a with
    | none => rw [climb_none hc hi] at h; cases h
    | some c => exact ⟨c, climb_mem hclosed ha hc, rfl⟩
  obtain ⟨i, hi, j, hj, hne, heq⟩ := Finset.exists_ne_map_eq_of_card_lt_of_maps_to
    (s := Finset.range (xs.length + 1)) (t := xs.toFinset.image some)
    (f := fun i => climb parent i a)
    (by
      rw [Finset.card_range]
      have := Finset.card_image_le (s := xs.toFinset) (f := some)
      have := xs.toFinset_card_le
      omega)
    (by
      intro i hi
      obtain ⟨c, hc, hclimb⟩ := hvisited i (by simpa [Nat.lt_succ_iff] using hi)
      simp only [Finset.coe_image, Set.mem_image]
      exact ⟨c, by simpa using hc, hclimb.symm⟩)
  have hbound : ∀ {k}, k ∈ Finset.range (xs.length + 1) → k ≤ xs.length := by
    intro k hk
    have := Finset.mem_range.mp hk
    omega
  have hcase : ∀ {i j : Nat}, i < j → j ≤ xs.length → climb parent i a = climb parent j a →
      ∃ i n c, i + (n + 1) ≤ xs.length ∧ climb parent i a = some c ∧
        climb parent (n + 1) c = some c := by
    intro i j hlt hj heq
    obtain ⟨c, -, hc⟩ := hvisited i (by omega)
    obtain ⟨n, rfl⟩ : ∃ n, j = i + (n + 1) := ⟨j - i - 1, by omega⟩
    refine ⟨i, n, c, hj, hc, ?_⟩
    rw [climb_add, hc] at heq
    exact heq.symm
  rcases Nat.lt_or_gt_of_ne hne with hlt | hlt
  · exact hcase hlt (hbound hj) heq
  · exact hcase hlt (hbound hi) heq.symm

/-- Along acyclic links a chain is shorter than any finite set closed under parents. -/
theorem Acyclic.climb_ends [DecidableEq α] (h : Acyclic parent) {xs : List α}
    (hclosed : ∀ a ∈ xs, ∀ p, parent a = some p → p ∈ xs) {a : α} (ha : a ∈ xs) :
    climb parent xs.length a = none := by
  cases hb : climb parent xs.length a with
  | none => rfl
  | some b =>
      obtain ⟨i, n, c, -, -, hcycle⟩ := climb_repeats hclosed ha hb
      exact absurd hcycle (h c n)

/-- Some element of a finite set has its parent, if any, outside. -/
theorem Acyclic.exists_first [DecidableEq α] (h : Acyclic parent) (xs : List α) (hne : xs ≠ []) :
    ∃ a ∈ xs, ∀ p, parent a = some p → p ∉ xs := by
  by_contra hnone
  push Not at hnone
  obtain ⟨a, ha⟩ := List.exists_mem_of_ne_nil xs hne
  have hclosed : ∀ a ∈ xs, ∀ p, parent a = some p → p ∈ xs := by
    intro a ha p hp
    obtain ⟨p', hp', hmem⟩ := hnone a ha
    rw [hp] at hp'
    cases hp'
    exact hmem
  have hlong : ∀ n, ∃ b ∈ xs, climb parent n a = some b := by
    intro n
    induction n with
    | zero => exact ⟨a, ha, rfl⟩
    | succ n ih =>
        obtain ⟨b, hb, hclimb⟩ := ih
        obtain ⟨p, hp, hmem⟩ := hnone b hb
        exact ⟨p, hmem, by rw [climb_succ, hclimb]; exact hp⟩
  obtain ⟨b, -, hb⟩ := hlong xs.length
  rw [h.climb_ends hclosed ha] at hb
  cases hb

/-- A chain that ends is shorter than any finite set closed under parents. -/
theorem climb_ends_within [DecidableEq α] {xs : List α}
    (hclosed : ∀ a ∈ xs, ∀ p, parent a = some p → p ∈ xs) {a : α} (ha : a ∈ xs) {m : Nat}
    (hend : climb parent m a = none) : climb parent xs.length a = none := by
  cases hb : climb parent xs.length a with
  | none => rfl
  | some b =>
      obtain ⟨i, n, c, -, hc, hcycle⟩ := climb_repeats hclosed ha hb
      -- an element that returns to itself has ancestors at any distance
      have hforever : ∀ k, ∃ d, climb parent k c = some d := by
        intro k
        induction k with
        | zero => exact ⟨c, rfl⟩
        | succ k ih =>
            obtain ⟨d, hd⟩ := ih
            have hagain : climb parent (n + 1 + k) c = some d := by
              rw [climb_add, hcycle]
              exact hd
            rw [show n + 1 + k = k + 1 + n from by omega, climb_add] at hagain
            obtain ⟨e, he, -⟩ := Option.bind_eq_some_iff.mp hagain
            exact ⟨e, he⟩
      obtain ⟨d, hd⟩ := hforever m
      have hlong : climb parent (i + m) a = some d := by
        rw [climb_add, hc]
        exact hd
      rw [climb_none hend (by omega)] at hlong
      cases hlong

/-- Following links stays in a set closed under parents. -/
theorem follow_parents_mem {xs : List α} (hclosed : ∀ a ∈ xs, ∀ p, parent a = some p → p ∈ xs)
    (n : Nat) {a : α} (ha : a ∈ xs) : followParents parent n a ∈ xs := by
  induction n generalizing a with
  | zero => exact ha
  | succ n ih =>
      rw [followParents]
      cases hparent : parent a with
      | none => exact ha
      | some p => exact ih (hclosed a ha p hparent)

/-- A bound past the end of the chain does not matter. -/
theorem follow_parents_stable {k n : Nat} {a : α} (h : climb parent (k + 1) a = none)
    (hle : k ≤ n) : followParents parent n a = followParents parent k a := by
  induction k generalizing n a with
  | zero =>
      have hparent : parent a = none := by
        rw [climb_succ] at h
        simpa [climb] using h
      cases n with
      | zero => rfl
      | succ n => simp [followParents, hparent]
  | succ k ih =>
      obtain ⟨n, rfl⟩ : ∃ m, n = m + 1 := ⟨n - 1, by omega⟩
      cases hparent : parent a with
      | none => simp [followParents, hparent]
      | some p =>
          rw [climb, hparent] at h
          simp only [followParents, hparent]
          exact ih h (by omega)

namespace ParentsFirst

theorem nil : ParentsFirst parent ([] : List α) := by
  intro i a p h
  simp at h

/-- An element can follow once its parent is listed. -/
theorem concat {xs : List α} (h : ParentsFirst parent xs) {a : α}
    (ha : ∀ p, parent a = some p → p ∈ xs) : ParentsFirst parent (xs ++ [a]) := by
  have hkeep : ∀ {j p}, j < xs.length → xs[j]? = some p → (xs ++ [a])[j]? = some p := by
    intro j p hj hp
    rw [List.getElem?_append_left hj, hp]
  intro i b p hb hp
  rcases Nat.lt_or_ge i xs.length with hi | hi
  · rw [List.getElem?_append_left hi] at hb
    obtain ⟨j, hj, hjp⟩ := h i b p hb hp
    exact ⟨j, hj, hkeep (by omega) hjp⟩
  · rw [List.getElem?_append_right hi] at hb
    obtain rfl : a = b := by
      cases hk : i - xs.length with
      | zero => simpa [hk] using hb
      | succ k => simp [hk] at hb
    obtain ⟨j, hj, hjp⟩ := List.getElem_of_mem (ha p hp)
    exact ⟨j, by omega, hkeep hj (by rw [List.getElem?_eq_getElem hj, hjp])⟩

/-- Every link leads further to the front. -/
theorem climb_le {xs : List α} (h : ParentsFirst parent xs) {n i : Nat} {a b : α}
    (ha : xs[i]? = some a) (hb : climb parent n a = some b) :
    ∃ j, j + n ≤ i ∧ xs[j]? = some b := by
  induction n generalizing i a with
  | zero =>
      obtain rfl : a = b := by simpa [climb] using hb
      exact ⟨i, by omega, ha⟩
  | succ n ih =>
      obtain ⟨p, hp, hb⟩ := Option.bind_eq_some_iff.mp hb
      obtain ⟨j, hj, hjp⟩ := h i a p ha hp
      obtain ⟨k, hk, hkb⟩ := ih hjp hb
      exact ⟨k, by omega, hkb⟩

/-- No chain returns to a listed element. -/
theorem acyclic {xs : List α} (h : ParentsFirst parent xs) {a : α} (ha : a ∈ xs) (n : Nat) :
    climb parent (n + 1) a ≠ some a := by
  intro hcycle
  have hall : ∀ i : Nat, xs[i]? ≠ some a := by
    intro i
    induction i using Nat.strong_induction_on with
    | _ i ih =>
        intro hi
        obtain ⟨j, hj, hja⟩ := h.climb_le hi hcycle
        exact ih j (by omega) hja
  obtain ⟨i, hi, hia⟩ := List.getElem_of_mem ha
  exact hall i (by rw [List.getElem?_eq_getElem hi, hia])

end ParentsFirst

end Foundations
