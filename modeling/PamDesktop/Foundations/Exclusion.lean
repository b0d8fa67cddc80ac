import PamDesktop.Foundations.Footprint

/-!
# Programs that take turns

The members of a family of programs run interleaved on one state. Each of them is made of an
entry, a critical part and an exit; `Pool` keeps which of the three a member is in, and lets one
into its critical part only where it is admitted. `Interleaving` is the same run without the parts
and without a guard. Read `TakesTurns.invariant` first: what is shared between the members keeps
an invariant when they are inside one at a time.
-/

namespace Foundations

variable {S : Signature} {ι κ ν σ ε α β : Type}

namespace Machine

/-- The call changes nothing, at its end or on the way. -/
def Observes (M : Machine S σ) (c : S.Call) : Prop :=
  ∀ s, (M.perform c s).2 = s ∧ ∀ s', ¬ M.partway c s s'

variable {M : Machine S σ}

/-- A step of a program that only observes leaves the state as it is. -/
theorem Step.unchanged {p p' : Program S ε α} {s s' : σ} (hp : p.Uses M.Observes)
    (h : M.Step (p, s) (p', s')) : s' = s := by
  cases h with
  | partway c next _ _ hmid => exact absurd hmid ((hp.1 s).2 s')
  | perform c next _ => exact (hp.1 s).1

/-- A step of the first part of a sequence is one of the sequence. -/
theorem Step.bind {p p' : Program S ε α} {s s' : σ} (h : M.Step (p, s) (p', s'))
    (f : α → Program S ε β) : M.Step (p.bind f, s) (p'.bind f, s') := by
  cases h with
  | partway c next _ _ hmid => exact .partway c _ s s' hmid
  | perform c next _ => exact .perform c _ s

/-- A step of a sequence is one of its first part, or that part has ended. -/
theorem step_bind {p : Program S ε α} {f : α → Program S ε β} {q : Program S ε β} {s s' : σ}
    (h : M.Step (p.bind f, s) (q, s')) :
    (∃ p', M.Step (p, s) (p', s') ∧ q = p'.bind f) ∨
      ∃ value, p = .done value ∧ M.Step (f value, s) (q, s') := by
  cases p with
  | done value => exact .inr ⟨value, rfl, h⟩
  | fail error => cases h
  | call c next =>
      cases h with
      | partway _ _ _ _ hmid => exact .inl ⟨_, .partway c next s s' hmid, rfl⟩
      | perform => exact .inl ⟨_, .perform c next s, rfl⟩

end Machine

/-- A program made of an entry, a critical part and an exit. -/
structure Sectioned (S : Signature) (ε : Type) where
  entry : Program S ε Unit
  critical : Program S ε Unit
  exit : Program S ε Unit

/-- The whole of the program. -/
def Sectioned.program (p : Sectioned S ε) : Program S ε Unit :=
  p.entry.bind fun _ => p.critical.bind fun _ => p.exit

/-- The part that a program is in, with what is left of it. A program that was killed or that
ended with an error is gone. -/
inductive Turn (S : Signature) (ε : Type) where
  | waiting (rest : Program S ε Unit)
  | inside (rest : Program S ε Unit)
  | leaving (rest : Program S ε Unit)
  | gone

/-- What is left of the whole program. -/
def Turn.remaining (p : Sectioned S ε) : Turn S ε → Option (Program S ε Unit)
  | .waiting rest => some (rest.bind fun _ => p.critical.bind fun _ => p.exit)
  | .inside rest => some (rest.bind fun _ => p.exit)
  | .leaving rest => some rest
  | .gone => none

/-- A step of one of the programs that run on one state. -/
inductive Interleaving [DecidableEq ι] (M : Machine S σ) :
    (ι → Program S ε Unit) × σ → (ι → Program S ε Unit) × σ → Prop where
  | step (i : ι) (programs : ι → Program S ε Unit) (s s' : σ) (rest : Program S ε Unit) :
      M.Step (programs i, s) (rest, s') →
      Interleaving M (programs, s) (Function.update programs i rest, s')

/-- While the others wait, a run of one of the programs is an interleaving. -/
theorem interleaving_of_reaches [DecidableEq ι] {M : Machine S σ}
    {programs : ι → Program S ε Unit} {i : ι} {p : Program S ε Unit} {s s' : σ}
    (h : M.Reaches (programs i, s) (p, s')) :
    Relation.ReflTransGen (Interleaving M) (programs, s) (Function.update programs i p, s') := by
  generalize hfinish : (p, s') = finish at h
  induction h generalizing p s' with
  | refl =>
      cases hfinish
      rw [Function.update_eq_self]
  | @tail middle _ _ hstep ih =>
      subst hfinish
      obtain ⟨q, t⟩ := middle
      have hnext := Interleaving.step i (Function.update programs i q) t s' p (by simpa using hstep)
      rw [Function.update_idem] at hnext
      exact (ih rfl).tail hnext

/-- The parts that the programs are in, and the state they run on. -/
structure Pool (ι : Type) (S : Signature) (ε σ : Type) where
  turn : ι → Turn S ε
  state : σ

namespace Pool

variable [DecidableEq ι]

/-- No program has begun. -/
def start (programs : ι → Sectioned S ε) (s : σ) : Pool ι S ε σ :=
  ⟨fun i => .waiting (programs i).entry, s⟩

/-- One of the programs goes on. -/
def goto (pool : Pool ι S ε σ) (i : ι) (turn : Turn S ε) (s : σ) : Pool ι S ε σ :=
  ⟨Function.update pool.turn i turn, s⟩

/-- No other program is in its critical part. -/
def Alone (pool : Pool ι S ε σ) (i : ι) : Prop :=
  ∀ j ≠ i, ∀ rest, pool.turn j ≠ .inside rest

/-- A program goes on in the part it is in or into the next one, or it stops. It is let into its
critical part only where it is admitted. -/
inductive Step (M : Machine S σ) (programs : ι → Sectioned S ε)
    (admits : Pool ι S ε σ → ι → Prop) : Pool ι S ε σ → Pool ι S ε σ → Prop where
  | wait {pool} (i) {rest rest' s'} : pool.turn i = .waiting rest →
      M.Step (rest, pool.state) (rest', s') →
      Step M programs admits pool (pool.goto i (.waiting rest') s')
  | enter {pool} (i) : pool.turn i = .waiting (.done ()) → admits pool i →
      Step M programs admits pool (pool.goto i (.inside (programs i).critical) pool.state)
  | work {pool} (i) {rest rest' s'} : pool.turn i = .inside rest →
      M.Step (rest, pool.state) (rest', s') →
      Step M programs admits pool (pool.goto i (.inside rest') s')
  | leave {pool} (i) : pool.turn i = .inside (.done ()) →
      Step M programs admits pool (pool.goto i (.leaving (programs i).exit) pool.state)
  | finish {pool} (i) {rest rest' s'} : pool.turn i = .leaving rest →
      M.Step (rest, pool.state) (rest', s') →
      Step M programs admits pool (pool.goto i (.leaving rest') s')
  | stop {pool} (i) : Step M programs admits pool (pool.goto i .gone pool.state)

/-- Any number of steps. -/
def Runs (M : Machine S σ) (programs : ι → Sectioned S ε) (admits : Pool ι S ε σ → ι → Prop) :
    Pool ι S ε σ → Pool ι S ε σ → Prop :=
  Relation.ReflTransGen (Step M programs admits)

variable {M : Machine S σ} {programs : ι → Sectioned S ε} {admits : Pool ι S ε σ → ι → Prop}
  {pool pool' : Pool ι S ε σ} {rest : ι → Program S ε Unit}

@[simp] theorem goto_turn_same (pool : Pool ι S ε σ) (i : ι) (turn : Turn S ε) (s : σ) :
    (pool.goto i turn s).turn i = turn := by
  simp [goto]

theorem goto_turn_of_ne (pool : Pool ι S ε σ) {i j : ι} (turn : Turn S ε) (s : σ) (h : j ≠ i) :
    (pool.goto i turn s).turn j = pool.turn j := by
  simp [goto, h]

@[simp] theorem goto_state (pool : Pool ι S ε σ) (i : ι) (turn : Turn S ε) (s : σ) :
    (pool.goto i turn s).state = s := rfl

@[simp] theorem goto_goto (pool : Pool ι S ε σ) (i : ι) (turn turn' : Turn S ε) (s s' : σ) :
    (pool.goto i turn s).goto i turn' s' = pool.goto i turn' s' := by
  simp [goto]

theorem goto_self {i : ι} {turn : Turn S ε} (h : pool.turn i = turn) :
    pool.goto i turn pool.state = pool := by
  rw [goto, ← h, Function.update_eq_self]

/-- A run of the part that a program is in is a run of the pool. -/
theorem runs_of_reaches {i : ι} {p p' : Program S ε Unit} {s' : σ}
    (part : Program S ε Unit → Turn S ε)
    (hpart : ∀ pool q q' t, pool.turn i = part q → M.Step (q, pool.state) (q', t) →
      Step M programs admits pool (pool.goto i (part q') t))
    (hturn : pool.turn i = part p) (h : M.Reaches (p, pool.state) (p', s')) :
    Runs M programs admits pool (pool.goto i (part p') s') := by
  generalize hfinish : (p', s') = finish at h
  induction h generalizing p' s' with
  | refl =>
      cases hfinish
      rw [goto_self hturn]
      exact .refl
  | @tail middle _ _ hstep ih =>
      subst hfinish
      obtain ⟨q, t⟩ := middle
      have hnext := hpart (pool.goto i (part q) t) q p' s' (goto_turn_same ..) hstep
      rw [goto_goto] at hnext
      exact (ih rfl).tail hnext

/-- While the others are outside their critical parts, a program can pass its entry and get in. -/
theorem runs_inside {i : ι} {p p' : Program S ε Unit} {middle s' : σ} (halone : pool.Alone i)
    (hturn : pool.turn i = .waiting p) (hentry : M.Reaches (p, pool.state) (.done (), middle))
    (hcritical : M.Reaches ((programs i).critical, middle) (p', s')) :
    Runs M programs Alone pool (pool.goto i (.inside p') s') := by
  have hwait : Runs M programs Alone pool (pool.goto i (.waiting (.done ())) middle) :=
    runs_of_reaches .waiting (fun _ _ _ _ => .wait i) hturn hentry
  have hothers : (pool.goto i (.waiting (.done ())) middle).Alone i := by
    intro j hj rest
    rw [goto_turn_of_ne _ _ _ hj]
    exact halone j hj rest
  have henter : Step M programs Alone (pool.goto i (.waiting (.done ())) middle)
      ((pool.goto i (.waiting (.done ())) middle).goto i (.inside (programs i).critical) middle) :=
    .enter i (goto_turn_same ..) hothers
  have hwork : Runs M programs Alone (pool.goto i (.inside (programs i).critical) middle)
      ((pool.goto i (.inside (programs i).critical) middle).goto i (.inside p') s') :=
    runs_of_reaches .inside (fun _ _ _ _ => .work i) (goto_turn_same ..) hcritical
  rw [goto_goto] at henter hwork
  exact (hwait.tail henter).trans hwork

/-- What is left of every program that is not gone. -/
def Leaves (programs : ι → Sectioned S ε) (pool : Pool ι S ε σ) (rest : ι → Program S ε Unit) :
    Prop :=
  ∀ i p, (pool.turn i).remaining (programs i) = some p → rest i = p

/-- What is left of the others is left when one program goes on. -/
theorem Leaves.goto (h : pool.Leaves programs rest) (i : ι) (turn : Turn S ε)
    (p : Program S ε Unit) (s : σ) (hturn : ∀ q, turn.remaining (programs i) = some q → p = q) :
    (pool.goto i turn s).Leaves programs (Function.update rest i p) := by
  intro j q hq
  by_cases hj : j = i
  · subst hj
    rw [goto_turn_same] at hq
    simpa using hturn q hq
  · rw [goto_turn_of_ne _ _ _ hj] at hq
    simpa [hj] using h j q hq

/-- A step of a part is a step of what is left of the program. -/
theorem Leaves.step (h : pool.Leaves programs rest) (i : ι) (turn : Turn S ε)
    {p p' : Program S ε Unit} {s' : σ} (hturn : (pool.turn i).remaining (programs i) = some p)
    (hturn' : turn.remaining (programs i) = some p') (hstep : M.Step (p, pool.state) (p', s')) :
    ∃ rest', Interleaving M (rest, pool.state) (rest', s') ∧
      (pool.goto i turn s').Leaves programs rest' := by
  obtain rfl := h i p hturn
  refine ⟨_, .step i rest pool.state s' p' hstep, h.goto i turn p' s' fun q hq => ?_⟩
  exact Option.some.inj (hturn'.symm.trans hq)

/-- A step from one part to the next is none of the program. -/
theorem Leaves.silent (h : pool.Leaves programs rest) (i : ι) (turn : Turn S ε)
    (hturn : ∀ p, turn.remaining (programs i) = some p →
      (pool.turn i).remaining (programs i) = some p) :
    (pool.goto i turn pool.state).Leaves programs rest := by
  have hsame := h.goto i turn (rest i) pool.state fun q hq => h i q (hturn q hq)
  rwa [Function.update_eq_self] at hsame

/-- Every run of the pool is an interleaving of the whole programs. -/
theorem Runs.interleaves {s : σ} (h : Runs M programs admits (start programs s) pool) :
    ∃ rest, Relation.ReflTransGen (Interleaving M) (fun i => (programs i).program, s)
      (rest, pool.state) ∧ pool.Leaves programs rest := by
  induction h with
  | refl =>
      refine ⟨_, .refl, fun i p hp => ?_⟩
      exact Option.some.inj hp
  | tail _ hstep ih =>
      obtain ⟨rest, hruns, hleaves⟩ := ih
      cases hstep with
      | wait i hturn hstep =>
          obtain ⟨rest', hnext, hleaves'⟩ :=
            hleaves.step i (.waiting _) (by rw [hturn]; rfl) rfl (hstep.bind _)
          exact ⟨rest', hruns.tail hnext, hleaves'⟩
      | enter i hturn =>
          refine ⟨rest, hruns, hleaves.silent i _ fun p hp => ?_⟩
          rw [hturn]
          exact hp
      | work i hturn hstep =>
          obtain ⟨rest', hnext, hleaves'⟩ :=
            hleaves.step i (.inside _) (by rw [hturn]; rfl) rfl (hstep.bind _)
          exact ⟨rest', hruns.tail hnext, hleaves'⟩
      | leave i hturn =>
          refine ⟨rest, hruns, hleaves.silent i _ fun p hp => ?_⟩
          rw [hturn]
          exact hp
      | finish i hturn hstep =>
          obtain ⟨rest', hnext, hleaves'⟩ :=
            hleaves.step i (.leaving _) (by rw [hturn]; rfl) rfl hstep
          exact ⟨rest', hruns.tail hnext, hleaves'⟩
      | stop i => exact ⟨rest, hruns, hleaves.silent i _ fun p hp => nomatch hp⟩

section Unguarded

variable {i : ι} {p q : Program S ε Unit} {s' : σ}

/-- What a step of what is left of a program leads to, when it is admitted at any time. -/
def Follows (M : Machine S σ) (programs : ι → Sectioned S ε) (pool : Pool ι S ε σ) (i : ι)
    (q : Program S ε Unit) (s' : σ) : Prop :=
  ∃ turn, Runs M programs (fun _ _ => True) pool (pool.goto i turn s') ∧
    turn.remaining (programs i) = some q

/-- The program may have gone on to its next part before. -/
theorem Follows.after {turn : Turn S ε}
    (h : Follows M programs (pool.goto i turn pool.state) i q s')
    (hstep : Step M programs (fun _ _ => True) pool (pool.goto i turn pool.state)) :
    Follows M programs pool i q s' := by
  obtain ⟨turn', hruns, hleft⟩ := h
  rw [goto_goto] at hruns
  exact ⟨turn', .head hstep hruns, hleft⟩

/-- A step of the exit is one of its program. -/
theorem follows_leaving (hturn : pool.turn i = .leaving p)
    (h : M.Step (p, pool.state) (q, s')) : Follows M programs pool i q s' :=
  ⟨.leaving q, .single (.finish i hturn h), rfl⟩

/-- A step of what is left from the critical part on. -/
theorem follows_inside (hturn : pool.turn i = .inside p)
    (h : M.Step (p.bind fun _ => (programs i).exit, pool.state) (q, s')) :
    Follows M programs pool i q s' := by
  rcases Machine.step_bind h with ⟨p', hstep, rfl⟩ | ⟨value, rfl, hstep⟩
  · exact ⟨.inside p', .single (.work i hturn hstep), rfl⟩
  · exact (follows_leaving (goto_turn_same ..) hstep).after (.leave i hturn)

/-- A step of what is left from the entry on. -/
theorem follows_waiting (hturn : pool.turn i = .waiting p)
    (h : M.Step (p.bind fun _ => (programs i).critical.bind fun _ => (programs i).exit,
      pool.state) (q, s')) : Follows M programs pool i q s' := by
  rcases Machine.step_bind h with ⟨p', hstep, rfl⟩ | ⟨value, rfl, hstep⟩
  · exact ⟨.waiting p', .single (.wait i hturn hstep), rfl⟩
  · exact (follows_inside (goto_turn_same ..) hstep).after (.enter i hturn trivial)

/-- A step of what is left of a program is one of its part, perhaps once it is in the next. -/
theorem follows (hleft : (pool.turn i).remaining (programs i) = some p)
    (h : M.Step (p, pool.state) (q, s')) : Follows M programs pool i q s' := by
  cases hturn : pool.turn i with
  | waiting rest =>
      rw [hturn] at hleft
      obtain rfl := Option.some.inj hleft
      exact follows_waiting hturn h
  | inside rest =>
      rw [hturn] at hleft
      obtain rfl := Option.some.inj hleft
      exact follows_inside hturn h
  | leaving rest =>
      rw [hturn] at hleft
      obtain rfl := Option.some.inj hleft
      exact follows_leaving hturn h
  | gone =>
      rw [hturn] at hleft
      cases hleft

end Unguarded

/-- Every interleaving of the whole programs is a run of the pool that admits them at any time. -/
theorem runs_of_interleaving {s s' : σ}
    (h : Relation.ReflTransGen (Interleaving M) (fun i => (programs i).program, s) (rest, s')) :
    ∃ pool, Runs M programs (fun _ _ => True) (start programs s) pool ∧ pool.state = s' ∧
      ∀ i, (pool.turn i).remaining (programs i) = some (rest i) := by
  generalize hfinish : (rest, s') = finish at h
  induction h generalizing rest s' with
  | refl =>
      cases hfinish
      exact ⟨_, .refl, rfl, fun i => rfl⟩
  | tail _ hstep ih =>
      cases hstep with
      | step i before middle after p hstep =>
          cases hfinish
          obtain ⟨pool, hruns, rfl, hleft⟩ := ih rfl
          obtain ⟨turn, hnext, hturn⟩ := follows (hleft i) hstep
          refine ⟨_, hruns.trans hnext, rfl, fun j => ?_⟩
          by_cases hj : j = i
          · subst hj
            simpa using hturn
          · rw [goto_turn_of_ne _ _ _ hj]
            simpa [hj] using hleft j

end Pool

/-- Programs that share a part of the locations and have a part of their own each. The entry only
observes, the exit keeps to its own part, and the critical part keeps the invariant of what is
shared, provided that its own part is ready. -/
structure TakesTurns (M : Machine S (κ → ν)) (touches : S.Call → κ → Prop)
    (programs : ι → Sectioned S ε) (shared : κ → Prop) (own : ι → κ → Prop)
    (inv : (κ → ν) → Prop) (ready : ι → (κ → ν) → Prop) : Prop where
  entry : ∀ i, (programs i).entry.Uses M.Observes
  critical : ∀ i, Within touches (fun location => shared location ∨ own i location)
    (programs i).critical
  exit : ∀ i, Within touches (own i) (programs i).exit
  apart : ∀ i j, i ≠ j → ∀ location, own i location → ¬ own j location
  unshared : ∀ i location, own i location → ¬ shared location
  inv_shared : DecidedBy shared inv
  ready_own : ∀ i, DecidedBy (own i) (ready i)
  keeps : ∀ i s, inv s → ready i s →
    M.Safe inv (fun _ _ => True) (fun _ _ => True) (programs i).critical s

namespace TakesTurns

variable {M : Machine S (κ → ν)} {touches : S.Call → κ → Prop}
  {programs : ι → Sectioned S ε} {shared : κ → Prop} {own : ι → κ → Prop}
  {inv : (κ → ν) → Prop} {ready : ι → (κ → ν) → Prop} {pool pool' : Pool ι S ε (κ → ν)}
  {i j : ι} {s s' : κ → ν} {p p' : Program S ε Unit}

/-- What is known of one program, according to the part it is in. -/
def Stands (M : Machine S (κ → ν)) (touches : S.Call → κ → Prop) (shared : κ → Prop)
    (own : ι → κ → Prop) (inv : (κ → ν) → Prop) (ready : ι → (κ → ν) → Prop) (i : ι)
    (s : κ → ν) : Turn S ε → Prop
  | .waiting rest => rest.Uses M.Observes ∧ ready i s
  | .inside rest => Within touches (fun location => shared location ∨ own i location) rest ∧
      M.Safe inv (fun _ _ => True) (fun _ _ => True) rest s
  | .leaving rest => Within touches (own i) rest
  | .gone => True

/-- What is known of all of them: the shared part keeps the invariant, and at most one program is
in its critical part. -/
structure Ordered (M : Machine S (κ → ν)) (touches : S.Call → κ → Prop) (shared : κ → Prop)
    (own : ι → κ → Prop) (inv : (κ → ν) → Prop) (ready : ι → (κ → ν) → Prop)
    (pool : Pool ι S ε (κ → ν)) : Prop where
  invariant : inv pool.state
  stands : ∀ i, Stands M touches shared own inv ready i pool.state (pool.turn i)
  single : ∀ i rest, pool.turn i = .inside rest → pool.Alone i

/-- A step that leaves the own part of a waiting or leaving program alone does not disturb it, and
neither does one that leaves the shared part alone as well disturb a program inside. -/
theorem Stands.frame (h : TakesTurns M touches programs shared own inv ready)
    (hlocal : M.Local touches) {turn : Turn S ε}
    (hstands : Stands M touches shared own inv ready i s turn) (hown : AgreeOn (own i) s s')
    (hshared : ∀ rest, turn = .inside rest → AgreeOn shared s s') :
    Stands M touches shared own inv ready i s' turn := by
  cases turn with
  | waiting rest => exact ⟨hstands.1, h.ready_own i s s' hown hstands.2⟩
  | inside rest =>
      have hagree : AgreeOn (fun location => shared location ∨ own i location) s s' := by
        intro location hl
        rcases hl with hl | hl
        · exact hshared rest rfl location hl
        · exact hown location hl
      refine ⟨hstands.1, Machine.Safe.of_agree hlocal hstands.1 ?_ (fun _ _ _ _ => id)
        (fun _ _ _ _ => id) hagree hstands.2⟩
      intro first second hsame
      exact h.inv_shared first second (hsame.mono fun location hl => .inl hl)
  | leaving rest => exact hstands
  | gone => trivial

variable [DecidableEq ι]

/-- One program goes on and the others are not disturbed. -/
theorem Ordered.goto (h : Ordered M touches shared own inv ready pool) {turn : Turn S ε}
    (hinv : inv s')
    (hturn : Stands M touches shared own inv ready i s' turn)
    (hothers : ∀ j ≠ i, Stands M touches shared own inv ready j s' (pool.turn j))
    (hsingle : ∀ rest, turn = .inside rest → pool.Alone i) :
    Ordered M touches shared own inv ready (pool.goto i turn s') where
  invariant := hinv
  stands j := by
    by_cases hj : j = i
    · subst hj
      rwa [Pool.goto_turn_same]
    · rw [Pool.goto_turn_of_ne _ _ _ hj]
      exact hothers j hj
  single j rest hinside k hk rest' hother := by
    by_cases hj : j = i
    · subst hj
      rw [Pool.goto_turn_same] at hinside
      rw [Pool.goto_turn_of_ne _ _ _ hk] at hother
      exact hsingle rest hinside k hk rest' hother
    · rw [Pool.goto_turn_of_ne _ _ _ hj] at hinside
      by_cases hki : k = i
      · subst hki
        rw [Pool.goto_turn_same] at hother
        exact hsingle rest' hother j hj rest hinside
      · rw [Pool.goto_turn_of_ne _ _ _ hki] at hother
        exact h.single j rest hinside k hk rest' hother

/-- What one step preserves when the programs are let in one at a time. -/
theorem Ordered.step (h : TakesTurns M touches programs shared own inv ready)
    (hlocal : M.Local touches) (hordered : Ordered M touches shared own inv ready pool)
    (hstep : Pool.Step M programs Pool.Alone pool pool') :
    Ordered M touches shared own inv ready pool' := by
  have hsame (i j : ι) : j ≠ i →
      Stands M touches shared own inv ready j pool.state (pool.turn j) :=
    fun _ => hordered.stands j
  cases hstep with
  | wait i hturn hstep =>
      have hstands := hordered.stands i
      rw [hturn] at hstands
      obtain rfl := hstep.unchanged hstands.1
      exact hordered.goto hordered.invariant ⟨hstep.uses hstands.1, hstands.2⟩ (hsame i)
        fun rest heq => nomatch heq
  | enter i hturn halone =>
      have hstands := hordered.stands i
      rw [hturn] at hstands
      exact hordered.goto hordered.invariant
        ⟨h.critical i, h.keeps i pool.state hordered.invariant hstands.2⟩ (hsame i)
        fun _ _ => halone
  | work i hturn hstep =>
      have hstands := hordered.stands i
      rw [hturn] at hstands
      have hframe := hstep.frame hlocal hstands.1
      have hsafe := hstands.2.step hstep
      have halone := hordered.single i _ hturn
      refine hordered.goto hsafe.start ⟨hstep.uses hstands.1, hsafe⟩ (fun j hj => ?_)
        fun _ _ => halone
      refine (hordered.stands j).frame h hlocal (hframe.mono fun location hl => ?_)
        fun rest' hinside => absurd hinside (halone j hj rest')
      rintro (hshared | hown)
      · exact h.unshared j location hl hshared
      · exact h.apart i j hj.symm location hown hl
  | leave i hturn =>
      exact hordered.goto hordered.invariant (h.exit i) (hsame i) fun rest heq => nomatch heq
  | finish i hturn hstep =>
      have hstands := hordered.stands i
      rw [hturn] at hstands
      have hframe := hstep.frame hlocal hstands
      have hshared := hframe.mono fun location (hl : shared location) hown =>
        h.unshared i location hown hl
      refine hordered.goto (h.inv_shared _ _ hshared hordered.invariant) (hstep.uses hstands)
        (fun j hj => ?_) fun rest heq => nomatch heq
      refine (hordered.stands j).frame h hlocal (hframe.mono fun location hl hown => ?_)
        fun _ _ => hshared
      exact h.apart i j hj.symm location hown hl
  | stop i =>
      exact hordered.goto hordered.invariant trivial (hsame i) fun rest heq => nomatch heq

/-- Programs that are let into their critical parts one at a time keep the invariant of what they
share, wherever they are stopped. -/
theorem invariant (h : TakesTurns M touches programs shared own inv ready)
    (hlocal : M.Local touches) (hinv : inv s) (hready : ∀ i, ready i s)
    (hruns : Pool.Runs M programs Pool.Alone (Pool.start programs s) pool) : inv pool.state := by
  have hordered : Ordered M touches shared own inv ready pool := by
    induction hruns with
    | refl => exact ⟨hinv, fun i => ⟨h.entry i, hready i⟩, fun i rest heq => nomatch heq⟩
    | tail _ hstep ih => exact ih.step h hlocal hstep
  exact hordered.invariant

end TakesTurns

end Foundations
