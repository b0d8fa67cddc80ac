import Mathlib.Logic.Relation

/-!
# Programs of atomic calls and their interrupted runs

A program asks for calls one after another and ends with a value or an error. A machine
says what each call does to a state when it completes, and what may be seen of it when it is
cut off half way. `Reaches` is every configuration of a run, so a state it mentions is one in
which the run can be killed. `Safe` is the matching assertion: an invariant of every state on
the way together with conditions on the value or the error. Read `Safe.of_reaches` first.
-/

namespace Foundations

/-- The calls a program can make and the type of the answer to each. -/
structure Signature where
  Call : Type
  Reply : Call → Type

/-- A program over a signature, ending with a value or with an error. -/
inductive Program (S : Signature) (ε α : Type) where
  | done (value : α)
  | fail (error : ε)
  | call (c : S.Call) (next : S.Reply c → Program S ε α)

namespace Program

variable {S : Signature} {ε α β γ : Type}

/-- Sequencing: the first error ends the whole program. -/
def bind : Program S ε α → (α → Program S ε β) → Program S ε β
  | .done value, f => f value
  | .fail error, _ => .fail error
  | .call c next, f => .call c fun reply => (next reply).bind f

instance : Monad (Program S ε) where
  pure := .done
  bind := Program.bind

/-- Recover the error of a program as a value. -/
def attempt {ε' : Type} : Program S ε α → Program S ε' (Except ε α)
  | .done value => .done (.ok value)
  | .fail error => .done (.error error)
  | .call c next => .call c fun reply => (next reply).attempt

/-- Put another error in the place of the error of a program. -/
def mapError {ε' : Type} (f : ε → ε') : Program S ε α → Program S ε' α
  | .done value => .done value
  | .fail error => .fail (f error)
  | .call c next => .call c fun reply => (next reply).mapError f

/-- Turn a refused answer into the error of the program. -/
def orFail {κ : Type} (p : Program S ε (Except κ α)) (message : κ → ε) : Program S ε α :=
  p.bind fun
    | .ok value => .done value
    | .error reason => .fail (message reason)

/-- The program that ends at once with a given result. -/
def ofExcept : Except ε α → Program S ε α
  | .ok value => .done value
  | .error error => .fail error

@[simp] theorem pure_eq (value : α) : (pure value : Program S ε α) = .done value := rfl

@[simp] theorem bind_eq (p : Program S ε α) (f : α → Program S ε β) : p >>= f = p.bind f := rfl

@[simp] theorem done_bind (value : α) (f : α → Program S ε β) :
    (Program.done value : Program S ε α).bind f = f value := rfl

@[simp] theorem fail_bind (error : ε) (f : α → Program S ε β) :
    (Program.fail error : Program S ε α).bind f = .fail error := rfl

@[simp] theorem call_bind (c : S.Call) (next : S.Reply c → Program S ε α)
    (f : α → Program S ε β) :
    (Program.call c next).bind f = .call c fun reply => (next reply).bind f := rfl

/-- Sequencing is associative. -/
theorem bind_assoc (p : Program S ε α) (f : α → Program S ε β) (g : β → Program S ε γ) :
    (p.bind f).bind g = p.bind fun value => (f value).bind g := by
  induction p with
  | done value => rfl
  | fail error => rfl
  | call c next ih =>
      simp only [call_bind]
      congr 1
      funext reply
      exact ih reply

/-- Every call that the program makes is an allowed one. -/
def Uses (allowed : S.Call → Prop) : Program S ε α → Prop
  | .done _ => True
  | .fail _ => True
  | .call c next => allowed c ∧ ∀ reply, (next reply).Uses allowed

variable {allowed allowed' : S.Call → Prop}

theorem Uses.mono {p : Program S ε α} (hp : p.Uses allowed) (h : ∀ c, allowed c → allowed' c) :
    p.Uses allowed' := by
  induction p with
  | done value => trivial
  | fail error => trivial
  | call c next ih => exact ⟨h c hp.1, fun reply => ih reply (hp.2 reply)⟩

/-- Two programs that use allowed calls do so in sequence. -/
theorem Uses.bind {p : Program S ε α} {f : α → Program S ε β} (hp : p.Uses allowed)
    (hf : ∀ value, (f value).Uses allowed) : (p.bind f).Uses allowed := by
  induction p with
  | done value => exact hf value
  | fail error => trivial
  | call c next ih => exact ⟨hp.1, fun reply => ih reply (hp.2 reply)⟩

/-- Every value that the program can end with satisfies `ok`. -/
def Returns (ok : α → Prop) : Program S ε α → Prop
  | .done value => ok value
  | .fail _ => True
  | .call _ next => ∀ reply, (next reply).Returns ok

/-- A sequence returns what its second part returns. -/
theorem returns_bind {ok : β → Prop} {p : Program S ε α} {f : α → Program S ε β}
    (hf : ∀ value, (f value).Returns ok) : (p.bind f).Returns ok := by
  induction p with
  | done value => exact hf value
  | fail error => trivial
  | call c next ih => exact fun reply => ih reply

/-- The same with what is known of the first part. -/
theorem Returns.bind {ok : α → Prop} {ok' : β → Prop} {p : Program S ε α}
    {f : α → Program S ε β} (hp : p.Returns ok) (hf : ∀ value, ok value → (f value).Returns ok') :
    (p.bind f).Returns ok' := by
  induction p with
  | done value => exact hf value hp
  | fail error => trivial
  | call c next ih => exact fun reply => ih reply (hp reply)

/-- Replacing the error of a program keeps its values. -/
theorem Returns.mapError {ε' : Type} {ok : α → Prop} {p : Program S ε α} (hp : p.Returns ok)
    (f : ε → ε') : (p.mapError f).Returns ok := by
  induction p with
  | done value => exact hp
  | fail error => trivial
  | call c next ih => exact fun reply => ih reply (hp reply)

/-- A recovered program returns its values or an error. -/
theorem Returns.attempt {ε' : Type} {ok : α → Prop} {p : Program S ε α} (hp : p.Returns ok) :
    (p.attempt : Program S ε' (Except ε α)).Returns fun result =>
      ∀ value, result = .ok value → ok value := by
  induction p with
  | done value =>
      intro value' heq
      cases heq
      exact hp
  | fail error =>
      intro value heq
      cases heq
  | call c next ih => exact fun reply => ih reply (hp reply)

/-- The second part of a sequence starts only with values that the first part returns. -/
theorem Uses.bind_returned {ok : α → Prop} {p : Program S ε α} {f : α → Program S ε β}
    (hp : p.Uses allowed) (hok : p.Returns ok) (hf : ∀ value, ok value → (f value).Uses allowed) :
    (p.bind f).Uses allowed := by
  induction p with
  | done value => exact hf value hok
  | fail error => trivial
  | call c next ih => exact ⟨hp.1, fun reply => ih reply (hp.2 reply) (hok reply)⟩

/-- Failing on a refused answer makes no further call. -/
theorem Uses.orFail {κ : Type} {p : Program S ε (Except κ α)} {message : κ → ε}
    (hp : p.Uses allowed) : (p.orFail message).Uses allowed :=
  hp.bind fun
    | .ok _ => trivial
    | .error _ => trivial

/-- Recovering the error of a program makes no further call. -/
theorem Uses.attempt {ε' : Type} {p : Program S ε α} (hp : p.Uses allowed) :
    Uses allowed (p.attempt : Program S ε' (Except ε α)) := by
  induction p with
  | done value => trivial
  | fail error => trivial
  | call c next ih => exact ⟨hp.1, fun reply => ih reply (hp.2 reply)⟩

/-- A computed result makes no call. -/
theorem uses_of_except (result : Except ε α) :
    (Program.ofExcept result : Program S ε α).Uses allowed := by
  cases result <;> trivial

/-- The program never makes the call. -/
abbrev Avoids (target : S.Call) (p : Program S ε α) : Prop := p.Uses (· ≠ target)

end Program

/-- What the calls of a signature do to a state. `perform` is a completed call; `partway c s s'`
says that `s'` can be seen while the call `c`, made in `s`, is under way. -/
structure Machine (S : Signature) (σ : Type) where
  perform : (c : S.Call) → σ → S.Reply c × σ
  partway : S.Call → σ → σ → Prop

namespace Machine

variable {S : Signature} {σ ε α β : Type} (M : Machine S σ)

/-- Run a program to its end without interruption. -/
def run : Program S ε α → σ → Except ε α × σ
  | .done value, s => (.ok value, s)
  | .fail error, s => (.error error, s)
  | .call c next, s => run (next (M.perform c s).1) (M.perform c s).2

/-- The states that can be seen from the moment a call is made until it completes. -/
def Underway (c : S.Call) : σ → σ → Prop := Relation.ReflTransGen (M.partway c)

/-- One transition of a running program: a call goes on for a while, or completes. -/
inductive Step : Program S ε α × σ → Program S ε α × σ → Prop where
  | partway (c next) (s s' : σ) :
      M.partway c s s' → Step (.call c next, s) (.call c next, s')
  | perform (c next) (s : σ) :
      Step (.call c next, s) (next (M.perform c s).1, (M.perform c s).2)

/-- The calls that an uninterrupted run makes, in order. -/
def calls : Program S ε α → σ → List S.Call
  | .done _, _ => []
  | .fail _, _ => []
  | .call c next, s => c :: calls (next (M.perform c s).1) (M.perform c s).2

/-- Every configuration of a run, which is also every point at which it can be killed. -/
def Reaches : Program S ε α × σ → Program S ε α × σ → Prop := Relation.ReflTransGen M.Step

/-- Make up to so many calls of a program, each to its end. -/
def runSteps : Nat → Program S ε α × σ → Program S ε α × σ
  | steps + 1, (.call c next, s) => runSteps steps (next (M.perform c s).1, (M.perform c s).2)
  | _, config => config

/-- `s'` is left behind by a run of `p` from `s` that was killed or that ended. -/
def Leaves (p : Program S ε α) (s s' : σ) : Prop := ∃ p', M.Reaches (p, s) (p', s')

/-- Every state of a run of the program satisfies `inv`, its value satisfies `ok` and its error
satisfies `err`. -/
def Safe (inv : σ → Prop) (ok : α → σ → Prop) (err : ε → σ → Prop) :
    Program S ε α → σ → Prop
  | .done value, s => inv s ∧ ok value s
  | .fail error, s => inv s ∧ err error s
  | .call c next, s => ∀ s', M.Underway c s s' →
      inv s' ∧ Safe inv ok err (next (M.perform c s').1) (M.perform c s').2

variable {M}

/-- Killing a run before its first call leaves the state as it was. -/
theorem Leaves.refl (p : Program S ε α) (s : σ) : M.Leaves p s s := ⟨p, .refl⟩

/-- An uninterrupted run is one of the runs. -/
theorem reaches_run (p : Program S ε α) (s : σ) :
    M.Reaches (p, s) (.ofExcept (M.run p s).1, (M.run p s).2) := by
  induction p generalizing s with
  | done value => exact .refl
  | fail error => exact .refl
  | call c next ih => exact .head (.perform c next s) (ih _ _)

/-- A run can be killed after any number of calls. -/
theorem reaches_run_steps (steps : Nat) (p : Program S ε α) (s : σ) :
    M.Reaches (p, s) (M.runSteps steps (p, s)) := by
  induction steps generalizing p s with
  | zero => exact .refl
  | succ steps ih =>
      cases p with
      | done value => exact .refl
      | fail error => exact .refl
      | call c next => exact .head (.perform c next s) (ih _ _)

/-- A configuration that is known to be reached after some calls. -/
theorem reaches_of_run_steps {steps : Nat} {p : Program S ε α} {s : σ}
    {config : Program S ε α × σ} (h : config = M.runSteps steps (p, s)) :
    M.Reaches (p, s) (config.1, config.2) := by
  rw [h]
  exact reaches_run_steps steps p s

/-- What a run leaves behind that is killed after some calls. -/
theorem leaves_run_steps (steps : Nat) (p : Program S ε α) (s : σ) :
    M.Leaves p s (M.runSteps steps (p, s)).2 :=
  ⟨_, reaches_run_steps steps p s⟩

/-- Running a sequence is running the first part and then, unless it failed, the second. -/
theorem run_bind (p : Program S ε α) (f : α → Program S ε β) (s : σ) :
    M.run (p.bind f) s =
      match M.run p s with
      | (.ok value, s') => M.run (f value) s'
      | (.error error, s') => (.error error, s') := by
  induction p generalizing s with
  | done value => rfl
  | fail error => rfl
  | call c next ih => exact ih _ _

/-- The calls of a sequence. -/
theorem calls_bind (p : Program S ε α) (f : α → Program S ε β) (s : σ) :
    M.calls (p.bind f) s = M.calls p s ++
      match M.run p s with
      | (.ok value, s') => M.calls (f value) s'
      | (.error _, _) => [] := by
  induction p generalizing s with
  | done value => rfl
  | fail error => rfl
  | call c next ih => exact congrArg (List.cons c) (ih _ _)

/-- Recovering the error of a program changes nothing else in its run. -/
theorem run_attempt {ε' : Type} (p : Program S ε α) (s : σ) :
    M.run (p.attempt : Program S ε' (Except ε α)) s = (.ok (M.run p s).1, (M.run p s).2) := by
  induction p generalizing s with
  | done value => rfl
  | fail error => rfl
  | call c next ih => exact ih _ _

/-- A run ends with a value that the program returns. -/
theorem value_of_run {ok : α → Prop} {p : Program S ε α} (hp : p.Returns ok) {s : σ} {value : α}
    (h : (M.run p s).1 = .ok value) : ok value := by
  induction p generalizing s with
  | done value' =>
      cases h
      exact hp
  | fail error => cases h
  | call c next ih => exact ih _ (hp _) h

/-- What every allowed call preserves, a program of allowed calls preserves. -/
theorem run_invariant {inv : σ → Prop} {allowed : S.Call → Prop}
    (hcall : ∀ c s, allowed c → inv s → inv (M.perform c s).2) {p : Program S ε α}
    (hp : p.Uses allowed) {s : σ} (hs : inv s) : inv (M.run p s).2 := by
  induction p generalizing s with
  | done value => exact hs
  | fail error => exact hs
  | call c next ih => exact ih _ (hp.2 _) (hcall c s hp.1 hs)

/-- The calls of a program with its error recovered. -/
theorem calls_attempt {ε' : Type} (p : Program S ε α) (s : σ) :
    M.calls (p.attempt : Program S ε' (Except ε α)) s = M.calls p s := by
  induction p generalizing s with
  | done value => rfl
  | fail error => rfl
  | call c next ih => exact congrArg (List.cons c) (ih _ _)

/-- A run with a known result, with its final state. -/
theorem run_of_result {p : Program S ε α} {s : σ} {result : Except ε α}
    (h : (M.run p s).1 = result) : M.run p s = (result, (M.run p s).2) := by
  rw [← h]

/-- A run of a sequence is still in its first part or has entered the second. -/
theorem reaches_bind {p : Program S ε α} {f : α → Program S ε β} {s s' : σ}
    {q : Program S ε β} (h : M.Reaches (p.bind f, s) (q, s')) :
    (∃ p', M.Reaches (p, s) (p', s') ∧ q = p'.bind f) ∨
      ∃ value middle, M.Reaches (p, s) (.done value, middle) ∧
        M.Reaches (f value, middle) (q, s') := by
  generalize hstart : (p.bind f, s) = start at h
  generalize hfinish : (q, s') = finish at h
  induction h using Relation.ReflTransGen.head_induction_on generalizing p s with
  | refl =>
      obtain ⟨rfl, rfl⟩ := Prod.mk.inj (hstart.trans hfinish.symm)
      exact .inl ⟨p, .refl, rfl⟩
  | head hstep hrest ih =>
      cases p with
      | done value =>
          refine .inr ⟨value, s, .refl, ?_⟩
          rw [show (f value, s) = _ from hstart]
          exact .head hstep hrest
      | fail error =>
          subst hstart
          cases hstep
      | call c next =>
          subst hstart
          cases hstep with
          | partway _ _ _ middle hmid =>
              rcases ih (p := .call c next) (s := middle) rfl with ⟨p', hp, rfl⟩ | ⟨v, m, hp, hf⟩
              · exact .inl ⟨p', .head (.partway _ _ _ _ hmid) hp, rfl⟩
              · exact .inr ⟨v, m, .head (.partway _ _ _ _ hmid) hp, hf⟩
          | perform =>
              rcases ih (p := next (M.perform c s).1) (s := (M.perform c s).2) rfl with
                ⟨p', hp, rfl⟩ | ⟨v, m, hp, hf⟩
              · exact .inl ⟨p', .head (.perform _ _ _) hp, rfl⟩
              · exact .inr ⟨v, m, .head (.perform _ _ _) hp, hf⟩

/-- A run goes on while its next call is under way. -/
theorem Underway.reaches {c : S.Call} {s s' : σ} (h : M.Underway c s s')
    (next : S.Reply c → Program S ε α) : M.Reaches (.call c next, s) (.call c next, s') := by
  induction h with
  | refl => exact .refl
  | tail _ hmid ih => exact .tail ih (.partway c next _ _ hmid)

/-- A run of the first part is a run of the sequence. -/
theorem Reaches.bind {p p' : Program S ε α} {s s' : σ} (h : M.Reaches (p, s) (p', s'))
    (f : α → Program S ε β) : M.Reaches (p.bind f, s) (p'.bind f, s') := by
  refine Relation.ReflTransGen.lift
    (fun config : Program S ε α × σ => (config.1.bind f, config.2)) ?_ _ _ h
  intro start finish hstep
  cases hstep with
  | partway c next s s' hmid => exact .partway c _ s s' hmid
  | perform c next s => exact .perform c _ s

/-- A run is one of the program with its error recovered. -/
theorem Reaches.attempt {ε' : Type} {p p' : Program S ε α} {s s' : σ}
    (h : M.Reaches (p, s) (p', s')) :
    M.Reaches ((p.attempt : Program S ε' (Except ε α)), s) (p'.attempt, s') := by
  refine Relation.ReflTransGen.lift
    (fun config : Program S ε α × σ =>
      ((config.1.attempt : Program S ε' (Except ε α)), config.2)) ?_ _ _ h
  intro start finish hstep
  cases hstep with
  | partway c next s s' hmid => exact .partway c _ s s' hmid
  | perform c next s => exact .perform c _ s

/-- A run is one of the program with its error replaced. -/
theorem Reaches.mapError {ε' : Type} {p p' : Program S ε α} {s s' : σ}
    (h : M.Reaches (p, s) (p', s')) (f : ε → ε') :
    M.Reaches (p.mapError f, s) (p'.mapError f, s') := by
  refine Relation.ReflTransGen.lift
    (fun config : Program S ε α × σ => (config.1.mapError f, config.2)) ?_ _ _ h
  intro start finish hstep
  cases hstep with
  | partway c next s s' hmid => exact .partway c _ s s' hmid
  | perform c next s => exact .perform c _ s

/-- What is left of a run uses no other calls than the whole. -/
theorem Step.uses {allowed : S.Call → Prop} {p p' : Program S ε α} {s s' : σ}
    (hp : p.Uses allowed) (h : M.Step (p, s) (p', s')) : p'.Uses allowed := by
  cases h with
  | partway c next _ _ _ => exact hp
  | perform c next _ => exact hp.2 _

/-- The same for any number of steps. -/
theorem Reaches.uses {allowed : S.Call → Prop} {p p' : Program S ε α} {s s' : σ}
    (hp : p.Uses allowed) (h : M.Reaches (p, s) (p', s')) : p'.Uses allowed := by
  generalize hfinish : (p', s') = finish at h
  induction h generalizing p' s' with
  | refl => cases hfinish; exact hp
  | tail _ hstep ih =>
      subst hfinish
      exact hstep.uses (ih rfl)

/-- A run that is about to make a call its first part avoids has entered the second part. -/
theorem reaches_call_bind {p : Program S ε α} {f : α → Program S ε β} {s s' : σ} {c : S.Call}
    {next : S.Reply c → Program S ε β} (hp : p.Avoids c)
    (h : M.Reaches (p.bind f, s) (.call c next, s')) :
    ∃ value middle, M.Reaches (p, s) (.done value, middle) ∧
      M.Reaches (f value, middle) (.call c next, s') := by
  rcases reaches_bind h with ⟨p', hreach, heq⟩ | hsecond
  · have havoids : p'.Avoids c := hreach.uses hp
    cases p' with
    | done value => exact ⟨value, s', hreach, by rw [heq]; exact .refl⟩
    | fail error => cases heq
    | call c' next' =>
        cases heq
        exact absurd rfl havoids.1
  · exact hsecond

/-- A run that starts with a call it makes only once is about to make it only at the start. -/
theorem reaches_first_call {c : S.Call} {next next' : S.Reply c → Program S ε α} {s s' : σ}
    (hatomic : ∀ s s', ¬ M.partway c s s') (hnext : ∀ reply, (next reply).Avoids c)
    (h : M.Reaches (.call c next, s) (.call c next', s')) : next' = next ∧ s' = s := by
  rcases Relation.ReflTransGen.cases_head h with heq | ⟨⟨q, t⟩, hstep, hrest⟩
  · cases heq
    exact ⟨rfl, rfl⟩
  · cases hstep with
    | partway _ _ _ _ hmid => exact absurd hmid (hatomic _ _)
    | perform => exact absurd rfl (Reaches.uses (hnext _) hrest).1

namespace Safe

variable {inv inv' : σ → Prop} {ok ok' : α → σ → Prop} {err err' : ε → σ → Prop}

/-- The invariant holds before the program starts. -/
theorem start {p : Program S ε α} {s : σ} (h : M.Safe inv ok err p s) : inv s := by
  cases p with
  | done value => exact h.1
  | fail error => exact h.1
  | call c next => exact (h s .refl).1

/-- `Safe` is kept by every transition. -/
theorem step {p p' : Program S ε α} {s s' : σ} (h : M.Safe inv ok err p s)
    (hstep : M.Step (p, s) (p', s')) : M.Safe inv ok err p' s' := by
  cases hstep with
  | partway c next _ _ hmid => exact fun s'' hs'' => h s'' (.head hmid hs'')
  | perform c next _ => exact (h s .refl).2

/-- A safe program is safe in every configuration of its runs. -/
theorem of_reaches {p p' : Program S ε α} {s s' : σ} (h : M.Safe inv ok err p s)
    (hrun : M.Reaches (p, s) (p', s')) : M.Safe inv ok err p' s' := by
  generalize hfinish : (p', s') = finish at hrun
  induction hrun generalizing p' s' with
  | refl => cases hfinish; exact h
  | tail _ hstep ih =>
      subst hfinish
      exact (ih rfl).step hstep

/-- Whatever a killed or ended run leaves behind satisfies the invariant. -/
theorem of_leaves {p : Program S ε α} {s s' : σ} (h : M.Safe inv ok err p s)
    (hrun : M.Leaves p s s') : inv s' := by
  obtain ⟨p', hrun⟩ := hrun
  exact (h.of_reaches hrun).start

/-- The value that a run has ended with. -/
theorem of_done {p : Program S ε α} {s s' : σ} {value : α} (h : M.Safe inv ok err p s)
    (hrun : M.Reaches (p, s) (.done value, s')) : ok value s' :=
  (h.of_reaches hrun).2

/-- The result of an uninterrupted run. -/
theorem of_run {p : Program S ε α} {s : σ} (h : M.Safe inv ok err p s) :
    inv (M.run p s).2 ∧
      match (M.run p s).1 with
      | .ok value => ok value (M.run p s).2
      | .error error => err error (M.run p s).2 := by
  have hend := h.of_reaches (reaches_run p s)
  cases hr : (M.run p s).1 <;> simpa [hr, Program.ofExcept, Safe] using hend

/-- Weaken the invariant and both conditions. -/
theorem mono {p : Program S ε α} {s : σ} (h : M.Safe inv ok err p s)
    (hinv : ∀ s, inv s → inv' s) (hok : ∀ value s, inv s → ok value s → ok' value s)
    (herr : ∀ error s, inv s → err error s → err' error s) : M.Safe inv' ok' err' p s := by
  induction p generalizing s with
  | done value => exact ⟨hinv _ h.1, hok _ _ h.1 h.2⟩
  | fail error => exact ⟨hinv _ h.1, herr _ _ h.1 h.2⟩
  | call c next ih => exact fun s' hs' => ⟨hinv _ (h s' hs').1, ih _ (h s' hs').2⟩

/-- The rule for a sequence: the value of the first part is the start of the second. -/
theorem bind {p : Program S ε α} {f : α → Program S ε β} {s : σ} {mid : α → σ → Prop}
    {ok : β → σ → Prop} (hp : M.Safe inv mid err p s)
    (hf : ∀ value s', inv s' → mid value s' → M.Safe inv ok err (f value) s') :
    M.Safe inv ok err (p.bind f) s := by
  induction p generalizing s with
  | done value => exact hf _ _ hp.1 hp.2
  | fail error => exact hp
  | call c next ih => exact fun s' hs' => ⟨(hp s' hs').1, ih _ (hp s' hs').2⟩

/-- The rule for a sequence whose first part has error conditions of its own. -/
theorem seq {p : Program S ε α} {f : α → Program S ε β} {s : σ} {mid : α → σ → Prop}
    {ok : β → σ → Prop} (hp : M.Safe inv mid err' p s) (herr : ∀ error s, err' error s → err error s)
    (hf : ∀ value s', mid value s' → M.Safe inv ok err (f value) s') :
    M.Safe inv ok err (p.bind f) s :=
  (hp.mono (fun _ => id) (fun _ _ _ => id) fun error s _ => herr error s).bind
    fun value s' _ => hf value s'

/-- The rule for a call that is seen only before and after. -/
theorem call {c : S.Call} {next : S.Reply c → Program S ε α} {s : σ}
    (hatomic : ∀ s', ¬ M.partway c s s') (hs : inv s)
    (hnext : M.Safe inv ok err (next (M.perform c s).1) (M.perform c s).2) :
    M.Safe inv ok err (.call c next) s := by
  intro s' hs'
  obtain rfl : s' = s := by
    rcases Relation.ReflTransGen.cases_head hs' with h | ⟨_, h, _⟩
    · exact h.symm
    · exact absurd h (hatomic _)
  exact ⟨hs, hnext⟩

/-- A call that is seen only before and after is one transition. -/
theorem call_iff {c : S.Call} {next : S.Reply c → Program S ε α} {s : σ}
    (hatomic : ∀ s', ¬ M.partway c s s') :
    M.Safe inv ok err (.call c next) s ↔
      inv s ∧ M.Safe inv ok err (next (M.perform c s).1) (M.perform c s).2 :=
  ⟨fun h => h s .refl, fun h => call hatomic h.1 h.2⟩

/-- The rule for a program whose error is recovered as a value. -/
theorem attempt {ε' : Type} {err' : ε' → σ → Prop} {p : Program S ε α} {s : σ}
    (h : M.Safe inv ok err p s) :
    M.Safe inv
      (fun result s => match result with
        | .ok value => ok value s
        | .error error => err error s) err' p.attempt s := by
  induction p generalizing s with
  | done value => exact h
  | fail error => exact h
  | call c next ih => exact fun s' hs' => ⟨(h s' hs').1, ih _ (h s' hs').2⟩

/-- The rule for a program whose error is replaced. -/
theorem mapError {ε' : Type} {err' : ε' → σ → Prop} {f : ε → ε'} {p : Program S ε α} {s : σ}
    (h : M.Safe inv ok (fun error => err' (f error)) p s) : M.Safe inv ok err' (p.mapError f) s := by
  induction p generalizing s with
  | done value => exact h
  | fail error => exact h
  | call c next ih => exact fun s' hs' => ⟨(h s' hs').1, ih _ (h s' hs').2⟩

/-- The rule for a call that can be cut off: every state it passes through is in `during`. -/
theorem call_partway {c : S.Call} {next : S.Reply c → Program S ε α} {s : σ}
    (during : σ → Prop) (hs : during s)
    (hmid : ∀ s s', during s → M.partway c s s' → during s')
    (hinv : ∀ s, during s → inv s)
    (hnext : ∀ s, during s → M.Safe inv ok err (next (M.perform c s).1) (M.perform c s).2) :
    M.Safe inv ok err (.call c next) s := by
  intro s' hs'
  have hd : during s' := by
    induction hs' with
    | refl => exact hs
    | tail _ hstep ih => exact hmid _ _ ih hstep
  exact ⟨hinv _ hd, hnext _ hd⟩

end Safe

end Machine

end Foundations
