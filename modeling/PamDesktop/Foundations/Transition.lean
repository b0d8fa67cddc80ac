import Mathlib.Data.Option.Basic
import Mathlib.Order.OrderIsoNat

/-!
# Systems of atomic steps

A system says what each event does in each state, or that it cannot happen there. Concurrent
operations are played by one list of events in which their atomic steps are interleaved. `Always`
is a property of every state on the way and `Throughout` a condition on every step; the theorems
connect the two by induction on the list.
-/

namespace Foundations

/-- What an event does in a state, or `none` where it cannot happen. -/
structure System (σ ε : Type) where
  next : σ → ε → Option σ

namespace System

variable {σ ε : Type} (M : System σ ε)

/-- Play events one after another. -/
def play : σ → List ε → Option σ
  | s, [] => some s
  | s, event :: events => (M.next s event).bind fun s' => play s' events

/-- The property holds in every state of the play. -/
def Always (P : σ → Prop) : σ → List ε → Prop
  | s, [] => P s
  | s, event :: events => P s ∧ ∀ s', M.next s event = some s' → Always P s' events

/-- The condition holds of every step of the play. -/
def Throughout (C : σ → ε → Prop) : σ → List ε → Prop
  | _, [] => True
  | s, event :: events => C s event ∧ ∀ s', M.next s event = some s' → Throughout C s' events

variable {M} {P I : σ → Prop} {C : σ → ε → Prop}

/-- A condition that can be decided on a step can be decided on a play. -/
instance [∀ s event, Decidable (C s event)] :
    ∀ s events, Decidable (M.Throughout C s events)
  | _, [] => .isTrue trivial
  | s, event :: events =>
      match hnext : M.next s event with
      | none => decidable_of_iff (C s event) (by simp [Throughout, hnext])
      | some s' =>
          have := instDecidableThroughout s' events
          decidable_of_iff (C s event ∧ M.Throughout C s' events) (by simp [Throughout, hnext])

/-- Playing two lists of events is playing the first and then the second. -/
theorem play_append (s : σ) (first second : List ε) :
    M.play s (first ++ second) = (M.play s first).bind fun s' => M.play s' second := by
  induction first generalizing s with
  | nil => rfl
  | cons event events ih =>
      simp only [List.cons_append, play]
      cases M.next s event with
      | none => rfl
      | some s' => exact ih s'

/-- Where every event can happen in every state, every play comes to its end. -/
theorem play_total (h : ∀ s event, (M.next s event).isSome) (s : σ) (events : List ε) :
    ∃ final, M.play s events = some final := by
  induction events generalizing s with
  | nil => exact ⟨s, rfl⟩
  | cons event events ih =>
      obtain ⟨s', hnext⟩ := Option.isSome_iff_exists.mp (h s event)
      obtain ⟨final, hplay⟩ := ih s'
      exact ⟨final, Option.bind_eq_some_iff.mpr ⟨s', hnext, hplay⟩⟩

/-- Where every step of one system is a step of another, so is every play. -/
theorem play_map {σ' ε' : Type} {N : System σ' ε'} (state : σ → σ') (label : ε → ε')
    (hstep : ∀ s event s', M.next s event = some s' →
      N.next (state s) (label event) = some (state s')) {s final : σ} {events : List ε}
    (hplay : M.play s events = some final) :
    N.play (state s) (events.map label) = some (state final) := by
  induction events generalizing s with
  | nil =>
      obtain rfl : s = final := by simpa [play] using hplay
      rfl
  | cons event events ih =>
      obtain ⟨middle, hnext, hrest⟩ := Option.bind_eq_some_iff.mp hplay
      exact Option.bind_eq_some_iff.mpr ⟨state middle, hstep s event middle hnext, ih hrest⟩

/-- A property of every state holds of the last. -/
theorem Always.last {s s' : σ} {events : List ε} (h : M.Always P s events)
    (hplay : M.play s events = some s') : P s' := by
  induction events generalizing s with
  | nil =>
      obtain rfl : s = s' := by simpa [play] using hplay
      exact h
  | cons event events ih =>
      obtain ⟨middle, hnext, hrest⟩ := Option.bind_eq_some_iff.mp hplay
      exact ih (h.2 middle hnext) hrest

/-- A property of every state holds of the first. -/
theorem Always.head {s : σ} {events : List ε} (h : M.Always P s events) : P s := by
  cases events with
  | nil => exact h
  | cons event events => exact h.1

theorem Always.mono {P' : σ → Prop} {s : σ} {events : List ε} (h : M.Always P s events)
    (hmono : ∀ s, P s → P' s) : M.Always P' s events := by
  induction events generalizing s with
  | nil => exact hmono s h
  | cons event events ih => exact ⟨hmono s h.1, fun s' hnext => ih (h.2 s' hnext)⟩

/-- What holds in the last state, and before a step wherever it holds after it, holds in every
state of the play. -/
theorem always_of_last {s final : σ} {events : List ε} (hplay : M.play s events = some final)
    (hfinal : P final) (hstep : ∀ s event s', M.next s event = some s' → P s' → P s) :
    M.Always P s events := by
  induction events generalizing s with
  | nil =>
      obtain rfl : s = final := by simpa [play] using hplay
      exact hfinal
  | cons event events ih =>
      obtain ⟨middle, hnext, hrest⟩ := Option.bind_eq_some_iff.mp hplay
      have hmiddle := ih hrest
      refine ⟨hstep s event middle hnext hmiddle.head, fun s' hnext' => ?_⟩
      obtain rfl : middle = s' := Option.some.inj (hnext.symm.trans hnext')
      exact hmiddle

/-- Two properties of every state are one. -/
theorem Always.and {P' : σ → Prop} {s : σ} {events : List ε} (h : M.Always P s events)
    (h' : M.Always P' s events) : M.Always (fun s => P s ∧ P' s) s events := by
  induction events generalizing s with
  | nil => exact ⟨h, h'⟩
  | cons event events ih =>
      exact ⟨⟨h.1, h'.1⟩, fun s' hnext => ih (h.2 s' hnext) (h'.2 s' hnext)⟩

/-- What the property of the states before and after a step says about the step. -/
theorem Always.throughout {s final : σ} {events : List ε} (h : M.Always P s events)
    (hplay : M.play s events = some final)
    (hstep : ∀ s event s', P s → M.next s event = some s' → P s' → C s event) :
    M.Throughout C s events := by
  induction events generalizing s with
  | nil => exact trivial
  | cons event events ih =>
      obtain ⟨middle, hnext, hrest⟩ := Option.bind_eq_some_iff.mp hplay
      refine ⟨hstep s event middle h.1 hnext (h.2 middle hnext).head, fun s' hnext' => ?_⟩
      obtain rfl : middle = s' := Option.some.inj (hnext.symm.trans hnext')
      exact ih (h.2 middle hnext) hrest

/-- A condition that the property of a state grants to every event there. -/
theorem Always.admits {s : σ} {events : List ε} (h : M.Always P s events)
    (hstep : ∀ s event, P s → C s event) : M.Throughout C s events := by
  induction events generalizing s with
  | nil => exact trivial
  | cons event events ih => exact ⟨hstep s event h.head, fun s' hnext => ih (h.2 s' hnext)⟩

/-- The condition holds of a step in the middle of the play. -/
theorem Throughout.step {s s' : σ} {first rest : List ε} {event : ε}
    (h : M.Throughout C s (first ++ event :: rest)) (hplay : M.play s first = some s') :
    C s' event := by
  induction first generalizing s with
  | nil =>
      obtain rfl : s = s' := by simpa [play] using hplay
      exact h.1
  | cons head tail ih =>
      obtain ⟨middle, hnext, hrest⟩ := Option.bind_eq_some_iff.mp hplay
      exact ih (h.2 middle hnext) hrest

/-- Events that are admitted in every state. -/
theorem throughout_of_events {events : List ε} (h : ∀ event ∈ events, ∀ s, C s event) (s : σ) :
    M.Throughout C s events := by
  induction events generalizing s with
  | nil => exact trivial
  | cons event events ih =>
      exact ⟨h event List.mem_cons_self s,
        fun s' _ => ih (fun other hmem => h other (List.mem_cons_of_mem event hmem)) s'⟩

/-- Two conditions on every step are one. -/
theorem Throughout.and {C' : σ → ε → Prop} {s : σ} {events : List ε} (h : M.Throughout C s events)
    (h' : M.Throughout C' s events) :
    M.Throughout (fun s event => C s event ∧ C' s event) s events := by
  induction events generalizing s with
  | nil => exact trivial
  | cons event events ih =>
      exact ⟨⟨h.1, h'.1⟩, fun s' hnext => ih (h.2 s' hnext) (h'.2 s' hnext)⟩

/-- A condition on every step that grants another. -/
theorem Throughout.mono {C' : σ → ε → Prop} {s : σ} {events : List ε} (h : M.Throughout C s events)
    (hmono : ∀ s event, C s event → C' s event) : M.Throughout C' s events := by
  induction events generalizing s with
  | nil => exact trivial
  | cons event events ih => exact ⟨hmono s event h.1, fun s' hnext => ih (h.2 s' hnext)⟩

/-- A condition on every step that grants another where the property of the state holds. -/
theorem Throughout.given {C' : σ → ε → Prop} {s : σ} {events : List ε}
    (h : M.Throughout C s events) (halways : M.Always P s events)
    (hstep : ∀ s event, P s → C s event → C' s event) : M.Throughout C' s events := by
  induction events generalizing s with
  | nil => exact trivial
  | cons event events ih =>
      exact ⟨hstep s event halways.1 h.1, fun s' hnext => ih (h.2 s' hnext) (halways.2 s' hnext)⟩

/-- What every admitted step preserves holds in every state of a play of admitted steps. -/
theorem Throughout.always {s : σ} {events : List ε} (h : M.Throughout C s events) (hs : I s)
    (hstep : ∀ s event s', I s → C s event → M.next s event = some s' → I s') :
    M.Always I s events := by
  induction events generalizing s with
  | nil => exact hs
  | cons event events ih =>
      exact ⟨hs, fun s' hnext => ih (h.2 s' hnext) (hstep s event s' hs h.1 hnext)⟩

/-- If a step breaks the property exactly when it is not admitted, then the property holds in
every state of a play exactly when every step of it is admitted. `I` is what helps to see that. -/
theorem always_iff_throughout {s final : σ} {events : List ε} (hs : I s ∧ P s)
    (hplay : M.play s events = some final)
    (hstep : ∀ s event s', I s → P s → M.next s event = some s' →
      I s' ∧ (C s event ↔ P s')) :
    M.Always P s events ↔ M.Throughout C s events := by
  induction events generalizing s with
  | nil => exact ⟨fun _ => trivial, fun _ => hs.2⟩
  | cons event events ih =>
      obtain ⟨middle, hnext, hrest⟩ := Option.bind_eq_some_iff.mp hplay
      obtain ⟨hinv, hiff⟩ := hstep s event middle hs.1 hs.2 hnext
      constructor
      · rintro ⟨-, halways⟩
        have hmiddle := halways middle hnext
        refine ⟨hiff.mpr hmiddle.head, fun s' hnext' => ?_⟩
        obtain rfl : middle = s' := Option.some.inj (hnext.symm.trans hnext')
        exact (ih ⟨hinv, hmiddle.head⟩ hrest).mp hmiddle
      · rintro ⟨hadmitted, hthroughout⟩
        refine ⟨hs.2, fun s' hnext' => ?_⟩
        obtain rfl : middle = s' := Option.some.inj (hnext.symm.trans hnext')
        exact (ih ⟨hinv, hiff.mp hadmitted⟩ hrest).mpr (hthroughout middle hnext)

/-- The same of a play in which another condition holds of every step. -/
theorem Throughout.always_iff {A : σ → ε → Prop} {s final : σ} {events : List ε}
    (hadmitted : M.Throughout A s events) (hs : I s ∧ P s)
    (hplay : M.play s events = some final)
    (hstep : ∀ s event s', I s → P s → A s event → M.next s event = some s' →
      I s' ∧ (C s event ↔ P s')) :
    M.Always P s events ↔ M.Throughout C s events := by
  induction events generalizing s with
  | nil => exact ⟨fun _ => trivial, fun _ => hs.2⟩
  | cons event events ih =>
      obtain ⟨middle, hnext, hrest⟩ := Option.bind_eq_some_iff.mp hplay
      obtain ⟨hevent, hlater⟩ := hadmitted
      obtain ⟨hinv, hiff⟩ := hstep s event middle hs.1 hs.2 hevent hnext
      constructor
      · rintro ⟨-, halways⟩
        have hmiddle := halways middle hnext
        refine ⟨hiff.mpr hmiddle.head, fun s' hnext' => ?_⟩
        obtain rfl : middle = s' := Option.some.inj (hnext.symm.trans hnext')
        exact (ih (hlater middle hnext) ⟨hinv, hmiddle.head⟩ hrest).mp hmiddle
      · rintro ⟨hfirst, hthroughout⟩
        refine ⟨hs.2, fun s' hnext' => ?_⟩
        obtain rfl : middle = s' := Option.some.inj (hnext.symm.trans hnext')
        exact (ih (hlater middle hnext) ⟨hinv, hiff.mp hfirst⟩ hrest).mpr
          (hthroughout middle hnext)

/-- Where every admitted step can happen, a play of admitted steps comes to its end. -/
theorem Throughout.play_exists {s : σ} {events : List ε} (h : M.Throughout C s events) (hs : I s)
    (hstep : ∀ s event, I s → C s event → ∃ s', M.next s event = some s' ∧ I s') :
    ∃ final, M.play s events = some final := by
  induction events generalizing s with
  | nil => exact ⟨s, rfl⟩
  | cons event events ih =>
      obtain ⟨s', hnext, hs'⟩ := hstep s event hs h.1
      obtain ⟨final, hplay⟩ := ih (h.2 s' hnext) hs'
      exact ⟨final, Option.bind_eq_some_iff.mpr ⟨s', hnext, hplay⟩⟩

/-! ## Plays without an end -/

/-- A play that goes on for ever: at any time there is an event, or nothing happens. -/
def Endless (M : System σ ε) (states : ℕ → σ) (events : ℕ → Option ε) : Prop :=
  ∀ n, match events n with
    | some event => M.next (states n) event = some (states (n + 1))
    | none => states (n + 1) = states n

variable {states : ℕ → σ} {events : ℕ → Option ε}

/-- What every admitted step preserves holds for ever. -/
theorem Endless.always (h : M.Endless states events) (hfirst : I (states 0))
    (hadmitted : ∀ n, ∀ event ∈ events n, C (states n) event)
    (hstep : ∀ s event s', I s → C s event → M.next s event = some s' → I s') (n : ℕ) :
    I (states n) := by
  induction n with
  | zero => exact hfirst
  | succ n ih =>
      have hnext := h n
      cases hevent : events n with
      | none =>
          rw [hevent] at hnext
          exact hnext.symm ▸ ih
      | some event =>
          rw [hevent] at hnext
          exact hstep _ event _ ih (hadmitted n event hevent) hnext

/-- Events that lower a rank happen only so often, if no event raises it. -/
theorem Endless.lowered_finitely_often (h : M.Endless states events) {α : Type} [PartialOrder α]
    [WellFoundedLT α] (rank : σ → α) {lowers : ε → Prop}
    (hrank : ∀ n event, M.next (states n) event = some (states (n + 1)) → event ∈ events n →
      rank (states (n + 1)) ≤ rank (states n) ∧
        (lowers event → rank (states (n + 1)) < rank (states n))) :
    ∃ bound, ∀ n, bound ≤ n → ∀ event ∈ events n, ¬ lowers event := by
  have hkeeps : ∀ n, rank (states (n + 1)) ≤ rank (states n) := by
    intro n
    have hnext := h n
    cases hevent : events n with
    | none =>
        rw [hevent] at hnext
        exact (congrArg rank hnext).le
    | some event =>
        rw [hevent] at hnext
        exact (hrank n event hnext hevent).1
  have hantitone : Antitone fun n => rank (states n) := antitone_nat_of_succ_le hkeeps
  obtain ⟨bound, hconstant⟩ := WellFoundedLT.antitone_chain_condition hantitone
  refine ⟨bound, fun n hn event hevent hlower => ?_⟩
  have hnext := h n
  rw [hevent] at hnext
  have hsame : rank (states n) = rank (states (n + 1)) :=
    (hconstant n hn).symm.trans (hconstant (n + 1) (Nat.le_succ_of_le hn))
  exact absurd ((hrank n event hnext hevent).2 hlower) (hsame ▸ lt_irrefl _)

end System

end Foundations
