import Mathlib.Logic.Function.Basic
import PamDesktop.Foundations.Program

/-!
# Programs that keep to a part of the state

The state is a function on locations. A machine is local when each call depends on and changes
only the locations it touches. A program whose calls touch only a part of the state leaves the
rest alone, and what is `Safe` about it stays so when others change the rest: that is what lets
programs with separate parts run interleaved. Read `Safe.of_agree` first.
-/

namespace Foundations

variable {S : Signature} {κ ν ε α : Type}

/-- Two states agree on a part of the locations. -/
def AgreeOn (part : κ → Prop) (s s' : κ → ν) : Prop :=
  ∀ location, part location → s location = s' location

/-- A property that is decided by a part of the state. -/
def DecidedBy (part : κ → Prop) (P : (κ → ν) → Prop) : Prop :=
  ∀ s s', AgreeOn part s s' → P s → P s'

variable {part part' : κ → Prop} {s s' s'' : κ → ν}

theorem AgreeOn.refl (part : κ → Prop) (s : κ → ν) : AgreeOn part s s := fun _ _ => rfl

theorem AgreeOn.symm (h : AgreeOn part s s') : AgreeOn part s' s :=
  fun location hl => (h location hl).symm

theorem AgreeOn.trans (h : AgreeOn part s s') (h' : AgreeOn part s' s'') : AgreeOn part s s'' :=
  fun location hl => (h location hl).trans (h' location hl)

theorem AgreeOn.mono (h : AgreeOn part s s') (hpart : ∀ location, part' location → part location) :
    AgreeOn part' s s' :=
  fun location hl => h location (hpart location hl)

/-- Changing the same location in the same way keeps states in agreement. -/
theorem AgreeOn.update [DecidableEq κ] (h : AgreeOn part s s') (location : κ) (value : ν) :
    AgreeOn part (Function.update s location value) (Function.update s' location value) := by
  intro other hother
  by_cases heq : other = location
  · subst heq
    simp
  · simpa [heq] using h other hother

/-- The calls touch only a part of the state. -/
def Within (touches : S.Call → κ → Prop) (part : κ → Prop) (p : Program S ε α) : Prop :=
  p.Uses fun c => ∀ location, touches c location → part location

theorem Within.mono {touches : S.Call → κ → Prop} {p : Program S ε α} (hp : Within touches part p)
    (hpart : ∀ location, part location → part' location) : Within touches part' p :=
  Program.Uses.mono hp fun _ hc location hl => hpart location (hc location hl)

namespace Machine

/-- Each call depends on and changes only the locations it touches. -/
structure Local (M : Machine S (κ → ν)) (touches : S.Call → κ → Prop) : Prop where
  reply : ∀ (part : κ → Prop) (c : S.Call) (s s' : κ → ν),
    (∀ location, touches c location → part location) → AgreeOn part s s' →
    (M.perform c s).1 = (M.perform c s').1
  effect : ∀ (part : κ → Prop) (c : S.Call) (s s' : κ → ν),
    (∀ location, touches c location → part location) → AgreeOn part s s' →
    AgreeOn part (M.perform c s).2 (M.perform c s').2
  frame : ∀ (c : S.Call) (s : κ → ν) (location : κ), ¬ touches c location →
    (M.perform c s).2 location = s location
  partway_effect : ∀ (part : κ → Prop) (c : S.Call) (s s' t : κ → ν),
    (∀ location, touches c location → part location) → AgreeOn part s s' → M.partway c s t →
    ∃ t', M.partway c s' t' ∧ AgreeOn part t t'
  partway_frame : ∀ (c : S.Call) (s t : κ → ν) (location : κ), M.partway c s t →
    ¬ touches c location → t location = s location

variable {M : Machine S (κ → ν)} {touches : S.Call → κ → Prop}

/-- A step of a program leaves everything outside its part alone. -/
theorem Step.frame (hlocal : M.Local touches) {p p' : Program S ε α}
    (hp : Within touches part p) (h : M.Step (p, s) (p', s')) :
    AgreeOn (fun location => ¬ part location) s s' := by
  intro location hl
  cases h with
  | partway c next _ _ hmid =>
      exact (hlocal.partway_frame c s s' location hmid fun htouch => hl (hp.1 location htouch)).symm
  | perform c next _ =>
      exact (hlocal.frame c s location fun htouch => hl (hp.1 location htouch)).symm

/-- A call that is under way from agreeing states passes through agreeing states. -/
theorem Underway.agree (hlocal : M.Local touches) {c : S.Call} {t : κ → ν}
    (hc : ∀ location, touches c location → part location) (h : AgreeOn part s s')
    (hway : M.Underway c s t) : ∃ t', M.Underway c s' t' ∧ AgreeOn part t t' := by
  induction hway with
  | refl => exact ⟨s', .refl, h⟩
  | tail _ hstep ih =>
      obtain ⟨middle, hmiddle, hagree⟩ := ih
      obtain ⟨t', hnext, hagree'⟩ := hlocal.partway_effect part c _ _ _ hc hagree hstep
      exact ⟨t', hmiddle.tail hnext, hagree'⟩

/-- A program within a part is as safe from any state that agrees on that part. -/
theorem Safe.of_agree (hlocal : M.Local touches) {inv : (κ → ν) → Prop}
    {ok : α → (κ → ν) → Prop} {err : ε → (κ → ν) → Prop} {p : Program S ε α}
    (hp : Within touches part p) (hinv : DecidedBy part inv)
    (hok : ∀ value, DecidedBy part (ok value)) (herr : ∀ error, DecidedBy part (err error))
    (hagree : AgreeOn part s s') (h : M.Safe inv ok err p s) : M.Safe inv ok err p s' := by
  induction p generalizing s s' with
  | done value => exact ⟨hinv _ _ hagree h.1, hok value _ _ hagree h.2⟩
  | fail error => exact ⟨hinv _ _ hagree h.1, herr error _ _ hagree h.2⟩
  | call c next ih =>
      intro t' hway
      obtain ⟨t, hway', hagree'⟩ := Underway.agree hlocal hp.1 hagree.symm hway
      obtain ⟨hinvt, hnext⟩ := h t hway'
      have hreply := hlocal.reply part c t t' hp.1 hagree'.symm
      refine ⟨hinv _ _ hagree'.symm hinvt, ?_⟩
      rw [← hreply]
      exact ih _ (hp.2 _) (hlocal.effect part c t t' hp.1 hagree'.symm) hnext

end Machine

end Foundations
