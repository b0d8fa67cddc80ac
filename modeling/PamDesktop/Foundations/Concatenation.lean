import Mathlib.Data.List.Basic

/-!
# Encodings that are read from the left

An encoding is `ReadOnce` if whatever follows it, the bytes tell where it ends and what it stands
for. Such encodings may be put one behind the other: what ends in a mark, what has a fixed length
and what is announced by its length are the pieces from which a record is built.
-/

namespace Foundations

variable {α β γ : Type}

/-- What stands at the beginning can be told from the whole. -/
def ReadOnce (valid : α → Prop) (encode : α → List β) : Prop :=
  ∀ first second rest rest', valid first → valid second →
    encode first ++ rest = encode second ++ rest' → first = second ∧ rest = rest'

/-- An encoding without a mark, followed by the mark. -/
theorem ReadOnce.terminated {valid : α → Prop} {encode : α → List β} {mark : β}
    (hinjective : ∀ first second, valid first → valid second → encode first = encode second →
      first = second)
    (hmark : ∀ value, valid value → mark ∉ encode value) :
    ReadOnce valid fun value => encode value ++ [mark] := by
  intro first second rest rest' hfirst hsecond h
  rw [List.append_assoc, List.append_assoc, List.singleton_append, List.singleton_append] at h
  have hparts : encode first = encode second ∧ rest = rest' := by
    have hleft := hmark first hfirst
    have hright := hmark second hsecond
    generalize encode first = left at h hleft
    generalize encode second = right at h hright
    induction left generalizing right with
    | nil =>
        cases right with
        | nil => exact ⟨rfl, (List.cons.inj h).2⟩
        | cons item right =>
            rw [(List.cons.inj h).1] at hright
            exact absurd List.mem_cons_self hright
    | cons item left ih =>
        cases right with
        | nil =>
            rw [← (List.cons.inj h).1] at hleft
            exact absurd List.mem_cons_self hleft
        | cons item' right =>
            obtain ⟨hitem, htail⟩ := List.cons.inj h
            obtain ⟨hsame, hrest⟩ := ih (fun hmem => hleft (List.mem_cons_of_mem _ hmem)) right
              htail fun hmem => hright (List.mem_cons_of_mem _ hmem)
            exact ⟨by rw [hitem, hsame], hrest⟩
  exact ⟨hinjective first second hfirst hsecond hparts.1, hparts.2⟩

/-- An encoding of one length. -/
theorem ReadOnce.fixed {valid : α → Prop} {encode : α → List β} {size : Nat}
    (hsize : ∀ value, (encode value).length = size)
    (hinjective : ∀ first second, valid first → valid second → encode first = encode second →
      first = second) : ReadOnce valid encode := by
  intro first second rest rest' hfirst hsecond h
  obtain ⟨hsame, hrest⟩ := List.append_inj h (by rw [hsize, hsize])
  exact ⟨hinjective first second hfirst hsecond hsame, hrest⟩

/-- A list behind its length. -/
theorem ReadOnce.counted {valid : Nat → Prop} {encode : Nat → List β}
    (h : ReadOnce valid encode) :
    ReadOnce (fun contents : List β => valid contents.length)
      fun contents => encode contents.length ++ contents := by
  intro first second rest rest' hfirst hsecond heq
  rw [List.append_assoc, List.append_assoc] at heq
  obtain ⟨hlength, hcontents⟩ := h _ _ _ _ hfirst hsecond heq
  exact List.append_inj hcontents hlength

/-- One encoding behind the other. -/
theorem ReadOnce.pair {valid : α → Prop} {valid' : γ → Prop} {encode : α → List β}
    {encode' : γ → List β} (h : ReadOnce valid encode) (h' : ReadOnce valid' encode') :
    ReadOnce (fun pair : α × γ => valid pair.1 ∧ valid' pair.2)
      fun pair => encode pair.1 ++ encode' pair.2 := by
  intro first second rest rest' hfirst hsecond heq
  rw [List.append_assoc, List.append_assoc] at heq
  obtain ⟨hleft, hremaining⟩ := h _ _ _ _ hfirst.1 hsecond.1 heq
  obtain ⟨hright, hrest⟩ := h' _ _ _ _ hfirst.2 hsecond.2 hremaining
  exact ⟨Prod.ext hleft hright, hrest⟩

/-- A concatenation tells the records that were put into it. -/
theorem ReadOnce.flatMap_injective {valid : α → Prop} {encode : α → List β}
    (h : ReadOnce valid encode) (hsome : ∀ value, encode value ≠ []) {first second : List α}
    (hfirst : ∀ value ∈ first, valid value) (hsecond : ∀ value ∈ second, valid value)
    (heq : first.flatMap encode = second.flatMap encode) : first = second := by
  induction first generalizing second with
  | nil =>
      cases second with
      | nil => rfl
      | cons value second =>
          rw [List.flatMap_nil, List.flatMap_cons] at heq
          exact absurd (List.append_eq_nil_iff.mp heq.symm).1 (hsome value)
  | cons value first ih =>
      cases second with
      | nil =>
          rw [List.flatMap_nil, List.flatMap_cons] at heq
          exact absurd (List.append_eq_nil_iff.mp heq).1 (hsome value)
      | cons value' second =>
          rw [List.flatMap_cons, List.flatMap_cons] at heq
          obtain ⟨hvalue, hrest⟩ := h _ _ _ _ (hfirst value List.mem_cons_self)
            (hsecond value' List.mem_cons_self) heq
          rw [hvalue, ih (fun other hother => hfirst other (List.mem_cons_of_mem _ hother))
            (fun other hother => hsecond other (List.mem_cons_of_mem _ hother)) hrest]

end Foundations
