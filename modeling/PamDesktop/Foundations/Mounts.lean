import Mathlib.Data.List.Infix

/-!
# Mounts

What stands behind the places of a sandbox after mounts one over the other: a later mount hides what
earlier ones put at its place and below it. `behind_append` is the rule.
-/

namespace Foundations

/-- A file system of the sandbox's own, or a place of the host. -/
inductive Mount (ν : Type) where
  | own (place : List ν)
  | bind (place source : List ν) (writable : Bool)
deriving DecidableEq

namespace Mount

variable {ν : Type}

/-- Where the mount is. -/
def place : Mount ν → List ν
  | own place => place
  | bind place _ _ => place

/-- What is at a place below the mount: a place of the host and whether it can be written there, or
nothing of the host. -/
def shows (inner : List ν) : Mount ν → Option (List ν × Bool)
  | own _ => none
  | bind place source writable => some (source ++ inner.drop place.length, writable)

/-- A mount is at the place or above it. -/
def Covers (mounts : List (Mount ν)) (inner : List ν) : Prop :=
  ∃ mount ∈ mounts, mount.place <+: inner

theorem covers_cons {mount : Mount ν} {mounts : List (Mount ν)} {inner : List ν} :
    Covers (mount :: mounts) inner ↔ mount.place <+: inner ∨ Covers mounts inner := by
  simp [Covers]

theorem covers_append {first second : List (Mount ν)} {inner : List ν} :
    Covers (first ++ second) inner ↔ Covers first inner ∨ Covers second inner := by
  simp [Covers, or_and_right, exists_or]

/-- Places of the host at the same places of the sandbox. -/
def binds (writable : Bool) (places : List (List ν)) : List (Mount ν) :=
  places.map fun place => bind place place writable

theorem covers_binds {writable : Bool} {places : List (List ν)} {inner : List ν} :
    Covers (binds writable places) inner ↔ ∃ place ∈ places, place <+: inner := by
  simp [Covers, binds, place]

variable [DecidableEq ν]

instance (mounts : List (Mount ν)) (inner : List ν) : Decidable (Covers mounts inner) :=
  inferInstanceAs (Decidable (∃ mount ∈ mounts, _))

/-- What is behind a place of the sandbox: the last mount above it decides. -/
def behind : List (Mount ν) → List ν → Option (List ν × Bool)
  | [], _ => none
  | mount :: later, inner =>
      if Covers later inner then behind later inner
      else if mount.place <+: inner then mount.shows inner
      else none

theorem behind_uncovered {mounts : List (Mount ν)} {inner : List ν} (h : ¬ Covers mounts inner) :
    behind mounts inner = none := by
  cases mounts with
  | nil => rfl
  | cons mount later =>
      rw [covers_cons, not_or] at h
      rw [behind, if_neg h.2, if_neg h.1]

/-- Later mounts decide where one of them is above the place. -/
theorem behind_append (first second : List (Mount ν)) (inner : List ν) :
    behind (first ++ second) inner =
      if Covers second inner then behind second inner else behind first inner := by
  induction first with
  | nil =>
      split
      · rfl
      · rename_i hcovers
        exact behind_uncovered hcovers
  | cons mount later ih =>
      rw [List.cons_append, behind, ih, behind]
      by_cases hsecond : Covers second inner
      · rw [if_pos (covers_append.mpr (.inr hsecond)), if_pos hsecond, if_pos hsecond]
      · simp only [covers_append, hsecond, or_false, if_false]

/-- The mount that decides. -/
theorem behind_some {mounts : List (Mount ν)} {inner outer : List ν} {writable : Bool}
    (h : behind mounts inner = some (outer, writable)) :
    ∃ mount ∈ mounts, mount.place <+: inner ∧ mount.shows inner = some (outer, writable) := by
  induction mounts with
  | nil => cases h
  | cons mount later ih =>
      rw [behind] at h
      split at h
      · obtain ⟨decider, hmem, hdecides⟩ := ih h
        exact ⟨decider, List.mem_cons_of_mem mount hmem, hdecides⟩
      · split at h
        · rename_i hprefix
          exact ⟨mount, List.mem_cons_self, hprefix, h⟩
        · cases h

theorem behind_append_some {first second : List (Mount ν)} {inner : List ν}
    {found : List ν × Bool} :
    behind (first ++ second) inner = some found ↔
      behind second inner = some found ∨
        ¬ Covers second inner ∧ behind first inner = some found := by
  rw [behind_append]
  by_cases hcovers : Covers second inner
  · simp [hcovers]
  · simp [hcovers, behind_uncovered hcovers]

/-- Places of the host at their own places. -/
theorem behind_binds (writable : Bool) (places : List (List ν)) (inner : List ν) :
    behind (binds writable places) inner =
      if ∃ place ∈ places, place <+: inner then some (inner, writable) else none := by
  induction places with
  | nil => rfl
  | cons first rest ih =>
      show (if Covers (binds writable rest) inner then behind (binds writable rest) inner
        else if first <+: inner then (bind first first writable).shows inner else none) = _
      rw [ih]
      by_cases hrest : ∃ place ∈ rest, place <+: inner
      · rw [if_pos (covers_binds.mpr hrest), if_pos hrest,
          if_pos (List.exists_mem_cons_of_exists hrest)]
      · rw [if_neg (covers_binds.not.mpr hrest)]
        by_cases hfirst : first <+: inner
        · rw [if_pos hfirst, if_pos ⟨first, List.mem_cons_self, hfirst⟩]
          obtain ⟨below, rfl⟩ := hfirst
          simp [shows]
        · rw [if_neg hfirst, if_neg (by simpa [hfirst] using hrest)]

end Mount

end Foundations
