import Mathlib.Data.List.Nodup

/-!
# Ledgers

A loop over a list that checks its elements one by one and refuses one whose key has been entered
before. `fold_ledger` says when such a loop succeeds and with what.
-/

namespace Foundations

variable {ε α κ σ : Type}

/-- A step of a loop that enters an element into a ledger: the element is good by itself, and its
key, if it has one, is not among the keys of the ledger. -/
structure Enters (step : σ → α → Except ε σ) (good : α → Prop) (key : α → Option κ)
    (keys : σ → List κ) (enter : σ → α → σ) : Prop where
  keys_enter : ∀ ledger element,
    keys (enter ledger element) = (key element).toList ++ keys ledger
  step_ok : ∀ ledger element ledger', step ledger element = .ok ledger' ↔
    good element ∧ (∀ k, key element = some k → k ∉ keys ledger) ∧
      ledger' = enter ledger element

/-- A loop succeeds exactly if every element is good and no key is entered twice. -/
theorem fold_ledger {step : σ → α → Except ε σ} {good : α → Prop} {key : α → Option κ}
    {keys : σ → List κ} {enter : σ → α → σ} (h : Enters step good key keys enter)
    (elements : List α) (ledger ledger' : σ) :
    elements.foldlM step ledger = .ok ledger' ↔
      (∀ element ∈ elements, good element) ∧ (elements.filterMap key).Nodup ∧
        (∀ k ∈ elements.filterMap key, k ∉ keys ledger) ∧
        ledger' = elements.foldl enter ledger := by
  induction elements generalizing ledger with
  | nil =>
      rw [List.foldlM_nil, List.filterMap_nil, List.foldl_nil]
      constructor
      · intro hok
        cases hok
        exact ⟨nofun, List.nodup_nil, nofun, rfl⟩
      · intro hok
        rw [hok.2.2.2]
        rfl
  | cons element rest ih =>
      rw [List.foldlM_cons, List.foldl_cons, List.forall_mem_cons, List.filterMap_cons]
      have hfirst := h.step_ok ledger element
      have hentered := h.keys_enter ledger element
      constructor
      · intro hok
        cases hstep : step ledger element with
        | error error =>
            rw [hstep] at hok
            cases hok
        | ok middle =>
            rw [hstep] at hok
            obtain ⟨hgood, hfresh, rfl⟩ := (hfirst middle).mp hstep
            obtain ⟨hrest, hnodup, hnew, rfl⟩ := (ih _).mp hok
            refine ⟨⟨hgood, hrest⟩, ?_⟩
            rw [hentered] at hnew
            cases hkey : key element with
            | none =>
                rw [hkey] at hnew
                exact ⟨hnodup, hnew, rfl⟩
            | some k =>
                rw [hkey] at hnew
                refine ⟨List.nodup_cons.mpr ⟨fun hmem => ?_, hnodup⟩,
                  List.forall_mem_cons.mpr ⟨hfresh k hkey, fun other hother hmem => ?_⟩, rfl⟩
                · exact hnew k hmem List.mem_cons_self
                · exact hnew other hother (List.mem_cons_of_mem _ hmem)
      · intro hok
        obtain ⟨⟨hgood, hrest⟩, hnodup, hnew, rfl⟩ := hok
        cases hkey : key element with
        | none =>
            rw [hkey] at hnodup hnew hentered hfirst
            have hstep := (hfirst _).mpr ⟨hgood, nofun, rfl⟩
            rw [hstep]
            exact (ih _).mpr ⟨hrest, hnodup, by rw [hentered]; exact hnew, rfl⟩
        | some k =>
            rw [hkey] at hnodup hnew hentered hfirst
            obtain ⟨hfresh, hnew⟩ := List.forall_mem_cons.mp hnew
            obtain ⟨hother, hnodup⟩ := List.nodup_cons.mp hnodup
            have hstep := (hfirst _).mpr
              ⟨hgood, fun k' hk' => Option.some.inj hk' ▸ hfresh, rfl⟩
            rw [hstep]
            refine (ih _).mpr ⟨hrest, hnodup, fun other hmem => ?_, rfl⟩
            rw [hentered]
            intro hentry
            obtain heq | hentry := List.mem_cons.mp hentry
            · exact hother (heq ▸ hmem)
            · exact hnew other hmem hentry

end Foundations
