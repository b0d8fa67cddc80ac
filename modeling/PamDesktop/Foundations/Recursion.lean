import PamDesktop.Foundations.Program

/-!
# Recursive procedures

A procedure has a program for each argument, which may call the procedure again. `exec` runs it as
deep as its fuel goes, `Nested` says which calls a call makes. `Meets` asserts that a run gives
what it should if the nested calls keep a contract: `exec_meets` is the rule for runs that end,
`exec_total` the rule for those that have to end. Read these two first.
-/

namespace Foundations

variable {S : Signature} {A σ ε α β : Type}

/-- The calls of a signature and those of a procedure, which come back with a value or an error. -/
abbrev Signature.withSelf (S : Signature) (A ε α : Type) : Signature where
  Call := S.Call ⊕ A
  Reply
    | .inl c => S.Reply c
    | .inr _ => Except ε α

/-- A procedure: its program for each argument. -/
abbrev Procedure (S : Signature) (A ε α : Type) : Type := A → Program (S.withSelf A ε α) ε α

/-- What a call with an argument comes to; nothing if it does not come to its end. -/
abbrev Calling (A σ ε α : Type) : Type := A → σ → Option (Except ε α × σ)

namespace Procedure

/-- Call a procedure from its program. A refused call ends the program. -/
def recur (a : A) : Program (S.withSelf A ε α) ε α :=
  .call (.inr a) Program.ofExcept

/-- A call of the signature in the program of a procedure. -/
def perform (c : S.Call) : Program (S.withSelf A ε α) ε (S.Reply c) :=
  .call (.inl c) .done

variable (M : Machine S σ)

/-- Run a program in which the calls of the procedure come to what `self` says. -/
def runWith (self : Calling A σ ε α) :
    Program (S.withSelf A ε α) ε β → σ → Option (Except ε β × σ)
  | .done value, s => some (.ok value, s)
  | .fail error, s => some (.error error, s)
  | .call (.inl c) next, s => runWith self (next (M.perform c s).1) (M.perform c s).2
  | .call (.inr a) next, s =>
      match self a s with
      | none => none
      | some (reply, s') => runWith self (next reply) s'

/-- Run a call with at most so many calls nested in each other, itself among them. -/
def exec (body : Procedure S A ε α) : Nat → Calling A σ ε α
  | 0, _, _ => none
  | fuel + 1, a, s => runWith M (exec body fuel) (body a) s

/-- The calls of the procedure that a program makes, with the states they are made in. -/
def callsWith (self : Calling A σ ε α) : Program (S.withSelf A ε α) ε β → σ → List (A × σ)
  | .done _, _ => []
  | .fail _, _ => []
  | .call (.inl c) next, s => callsWith self (next (M.perform c s).1) (M.perform c s).2
  | .call (.inr a) next, s =>
      (a, s) ::
        match self a s with
        | none => []
        | some (reply, s') => callsWith self (next reply) s'

/-- The first call makes the second. -/
def Nested (body : Procedure S A ε α) (outer inner : A × σ) : Prop :=
  ∃ fuel, inner ∈ callsWith M (exec M body fuel) (body outer.1) outer.2

/-- What a call asks of the state it is made in and what it gives. -/
structure Contract (A σ ε α : Type) where
  pre : A → σ → Prop
  post : A → σ → Except ε α → σ → Prop

/-- Every call with this outcome keeps the contract. -/
def Contract.Kept (contract : Contract A σ ε α) (self : Calling A σ ε α) : Prop :=
  ∀ a s reply s', contract.pre a s → self a s = some (reply, s') → contract.post a s reply s'

/-- The run of the program keeps to what the contract asks of its calls and ends as it should, if
these calls keep the contract. -/
def Meets (contract : Contract A σ ε α) (ok : Except ε β → σ → Prop) :
    Program (S.withSelf A ε α) ε β → σ → Prop
  | .done value, s => ok (.ok value) s
  | .fail error, s => ok (.error error) s
  | .call (.inl c) next, s => Meets contract ok (next (M.perform c s).1) (M.perform c s).2
  | .call (.inr a) next, s =>
      contract.pre a s ∧
        ∀ reply s', contract.post a s reply s' → Meets contract ok (next reply) s'

variable {M} {contract : Contract A σ ε α} {body : Procedure S A ε α}

/-! ## Programs -/

theorem Meets.conseq {ok ok' : Except ε β → σ → Prop} {p : Program (S.withSelf A ε α) ε β} {s : σ}
    (h : Meets M contract ok p s) (hok : ∀ result s', ok result s' → ok' result s') :
    Meets M contract ok' p s := by
  induction p generalizing s with
  | done value => exact hok _ _ h
  | fail error => exact hok _ _ h
  | call c next ih =>
      cases c with
      | inl c => exact ih _ h
      | inr a => exact ⟨h.1, fun reply s' hpost => ih reply (h.2 reply s' hpost)⟩

/-- The rule of sequences. -/
theorem Meets.bind {γ : Type} {ok : Except ε γ → σ → Prop} {p : Program (S.withSelf A ε α) ε β}
    {f : β → Program (S.withSelf A ε α) ε γ} {s : σ}
    (h : Meets M contract (fun result s' => match result with
      | .ok value => Meets M contract ok (f value) s'
      | .error error => ok (.error error) s') p s) :
    Meets M contract ok (p.bind f) s := by
  induction p generalizing s with
  | done value => exact h
  | fail error => exact h
  | call c next ih =>
      cases c with
      | inl c => exact ih _ h
      | inr a => exact ⟨h.1, fun reply s' hpost => ih reply (h.2 reply s' hpost)⟩

/-- The rule of refused answers. -/
theorem Meets.orFail {κ : Type} {ok : Except ε β → σ → Prop} {message : κ → ε}
    {p : Program (S.withSelf A ε α) ε (Except κ β)} {s : σ}
    (h : Meets M contract (fun (result : Except ε (Except κ β)) s' => match result with
      | .ok (.ok value) => ok (.ok value) s'
      | .ok (.error reason) => ok (.error (message reason)) s'
      | .error error => ok (.error error) s') p s) :
    Meets M contract ok (p.orFail message) s := by
  refine Meets.bind (h.conseq fun result s' hresult => ?_)
  cases result with
  | error error => exact hresult
  | ok answer =>
      cases answer with
      | error reason => exact hresult
      | ok value => exact hresult

/-- The rule of recovered errors. -/
theorem Meets.attempt {ε' : Type} {contract : Contract A σ ε' α}
    {ok : Except ε' (Except ε' β) → σ → Prop} {p : Program (S.withSelf A ε' α) ε' β} {s : σ}
    (h : Meets M contract (fun result s' => ok (.ok result) s') p s) :
    Meets M contract ok p.attempt s := by
  induction p generalizing s with
  | done value => exact h
  | fail error => exact h
  | call c next ih =>
      cases c with
      | inl c => exact ih _ h
      | inr a => exact ⟨h.1, fun reply s' hpost => ih reply (h.2 reply s' hpost)⟩

theorem meets_of_except {ok : Except ε β → σ → Prop} {result : Except ε β} {s : σ}
    (h : ok result s) : Meets M contract ok (.ofExcept result) s := by
  cases result with
  | ok value => exact h
  | error error => exact h

/-- The rule of nested calls. -/
theorem meets_recur {ok : Except ε α → σ → Prop} {a : A} {s : σ} (hpre : contract.pre a s)
    (hpost : ∀ reply s', contract.post a s reply s' → ok reply s') :
    Meets M contract ok (recur a) s :=
  ⟨hpre, fun reply s' h => meets_of_except (hpost reply s' h)⟩

/-- What every allowed call preserves, a program of allowed calls preserves. -/
theorem meets_invariant {inv : σ → Prop} {allowed : (S.withSelf A ε α).Call → Prop}
    (hcall : ∀ c s, allowed (.inl c) → inv s → inv (M.perform c s).2)
    (hself : ∀ a s, allowed (.inr a) → inv s →
      contract.pre a s ∧ ∀ reply s', contract.post a s reply s' → inv s')
    {p : Program (S.withSelf A ε α) ε β} (hp : p.Uses allowed) {s : σ} (hs : inv s) :
    Meets M contract (fun _ s' => inv s') p s := by
  induction p generalizing s with
  | done value => exact hs
  | fail error => exact hs
  | call c next ih =>
      cases c with
      | inl c => exact ih _ (hp.2 _) (hcall c s hp.1 hs)
      | inr a =>
          obtain ⟨hpre, hpost⟩ := hself a s hp.1 hs
          exact ⟨hpre, fun reply s' h => ih reply (hp.2 reply) (hpost reply s' h)⟩

/-- A run that ends does so as it should. -/
theorem Meets.run {self : Calling A σ ε α} (hself : contract.Kept self)
    {ok : Except ε β → σ → Prop} {p : Program (S.withSelf A ε α) ε β} {s s' : σ}
    {result : Except ε β} (h : Meets M contract ok p s)
    (hrun : runWith M self p s = some (result, s')) : ok result s' := by
  induction p generalizing s with
  | done value =>
      cases hrun
      exact h
  | fail error =>
      cases hrun
      exact h
  | call c next ih =>
      cases c with
      | inl c => exact ih _ h hrun
      | inr a =>
          rw [runWith] at hrun
          cases hcall : self a s with
          | none =>
              rw [hcall] at hrun
              cases hrun
          | some outcome =>
              obtain ⟨reply, after⟩ := outcome
              rw [hcall] at hrun
              exact ih reply (h.2 reply after (hself a s reply after h.1 hcall)) hrun

/-- The calls that a program makes are allowed by the contract. -/
theorem Meets.calls {self : Calling A σ ε α} (hself : contract.Kept self)
    {ok : Except ε β → σ → Prop} {p : Program (S.withSelf A ε α) ε β} {s t : σ} {b : A}
    (h : Meets M contract ok p s) (hcalls : (b, t) ∈ callsWith M self p s) :
    contract.pre b t := by
  induction p generalizing s with
  | done value => cases hcalls
  | fail error => cases hcalls
  | call c next ih =>
      cases c with
      | inl c => exact ih _ h hcalls
      | inr a =>
          rw [callsWith] at hcalls
          obtain heq | hcalls := List.mem_cons.mp hcalls
          · cases heq
            exact h.1
          · cases hcall : self a s with
            | none =>
                rw [hcall] at hcalls
                cases hcalls
            | some outcome =>
                obtain ⟨reply, after⟩ := outcome
                rw [hcall] at hcalls
                exact ih reply (h.2 reply after (hself a s reply after h.1 hcall)) hcalls

/-- If the calls end, the program does. -/
theorem Meets.ends {self : Calling A σ ε α} (hself : contract.Kept self)
    (hends : ∀ a s, contract.pre a s → self a s ≠ none) {ok : Except ε β → σ → Prop}
    {p : Program (S.withSelf A ε α) ε β} {s : σ} (h : Meets M contract ok p s) :
    runWith M self p s ≠ none := by
  induction p generalizing s with
  | done value => nofun
  | fail error => nofun
  | call c next ih =>
      cases c with
      | inl c => exact ih _ h
      | inr a =>
          rw [runWith]
          cases hcall : self a s with
          | none => exact absurd hcall (hends a s h.1)
          | some outcome =>
              obtain ⟨reply, after⟩ := outcome
              exact ih reply (h.2 reply after (hself a s reply after h.1 hcall))

/-! ## Runs -/

/-- The rule of recursion: a contract that the program keeps if the nested calls keep it, is
kept. -/
theorem exec_meets (hbody : ∀ a s, contract.pre a s →
      Meets M contract (contract.post a s) (body a) s) (fuel : Nat) :
    contract.Kept (exec M body fuel) := by
  induction fuel with
  | zero => nofun
  | succ fuel ih =>
      intro a s reply s' hpre hrun
      exact (hbody a s hpre).run ih hrun

/-- The rule of recursion for calls that have to end: every nested call has a smaller measure. -/
theorem exec_total {measure : A → σ → Nat} (hkept : ∀ fuel, contract.Kept (exec M body fuel))
    (hbody : ∀ a s, contract.pre a s →
      Meets M ⟨fun b t => contract.pre b t ∧ measure b t < measure a s, contract.post⟩
        (fun _ _ => True) (body a) s)
    {fuel : Nat} {a : A} {s : σ} (hpre : contract.pre a s) (hfuel : measure a s < fuel) :
    exec M body fuel a s ≠ none := by
  induction fuel generalizing a s with
  | zero => cases hfuel
  | succ fuel ih =>
      refine (hbody a s hpre).ends ?_ ?_
      · intro b t reply t' hallowed hrun
        exact hkept fuel b t reply t' hallowed.1 hrun
      · intro b t hallowed
        have hsmaller : measure b t < fuel := by omega
        exact ih hallowed.1 hsmaller

/-- What the contract asks holds for nested calls. -/
theorem Nested.pre (hkept : ∀ fuel, contract.Kept (exec M body fuel))
    {ok : Except ε α → σ → Prop} {outer inner : A × σ} (hnested : Nested M body outer inner)
    (h : Meets M contract ok (body outer.1) outer.2) : contract.pre inner.1 inner.2 := by
  obtain ⟨fuel, hcalls⟩ := hnested
  exact h.calls (hkept fuel) hcalls

/-- Calling the procedure comes to what the call comes to. -/
theorem run_with_recur (self : Calling A σ ε α) (a : A) (s : σ) :
    runWith M self (recur a) s = self a s := by
  rw [recur, runWith]
  cases self a s with
  | none => rfl
  | some outcome =>
      obtain ⟨reply, s'⟩ := outcome
      cases reply <;> rfl

/-- Running a sequence is running the first part and then, unless it failed, the second. -/
theorem run_with_bind {γ : Type} (self : Calling A σ ε α) (p : Program (S.withSelf A ε α) ε β)
    (f : β → Program (S.withSelf A ε α) ε γ) (s : σ) :
    runWith M self (p.bind f) s =
      match runWith M self p s with
      | none => none
      | some (.ok value, s') => runWith M self (f value) s'
      | some (.error error, s') => some (.error error, s') := by
  induction p generalizing s with
  | done value => rfl
  | fail error => rfl
  | call c next ih =>
      cases c with
      | inl c => exact ih _ _
      | inr a =>
          rw [Program.call_bind, runWith, runWith]
          cases self a s with
          | none => rfl
          | some outcome => exact ih _ _

/-- Recovering the error of a program changes nothing else in its run. -/
theorem run_with_attempt {ε' : Type} (self : Calling A σ ε' α)
    (p : Program (S.withSelf A ε' α) ε' β) (s : σ) :
    runWith M self (p.attempt : Program (S.withSelf A ε' α) ε' (Except ε' β)) s =
      (runWith M self p s).map fun outcome => (.ok outcome.1, outcome.2) := by
  induction p generalizing s with
  | done value => rfl
  | fail error => rfl
  | call c next ih =>
      cases c with
      | inl c => exact ih _ _
      | inr a =>
          rw [Program.attempt, runWith, runWith]
          cases self a s with
          | none => rfl
          | some outcome => exact ih _ _

theorem run_with_mono {self self' : Calling A σ ε α}
    (hself : ∀ a s outcome, self a s = some outcome → self' a s = some outcome)
    {p : Program (S.withSelf A ε α) ε β} {s : σ} {outcome : Except ε β × σ}
    (h : runWith M self p s = some outcome) : runWith M self' p s = some outcome := by
  induction p generalizing s with
  | done value => exact h
  | fail error => exact h
  | call c next ih =>
      cases c with
      | inl c => exact ih _ h
      | inr a =>
          rw [runWith] at h ⊢
          cases hcall : self a s with
          | none =>
              rw [hcall] at h
              cases h
          | some reply =>
              rw [hcall] at h
              rw [hself a s reply hcall]
              exact ih _ h

/-- More fuel does not change the outcome. -/
theorem exec_mono {fuel fuel' : Nat} (hle : fuel ≤ fuel') {a : A} {s : σ}
    {outcome : Except ε α × σ} (h : exec M body fuel a s = some outcome) :
    exec M body fuel' a s = some outcome := by
  induction fuel generalizing fuel' a s outcome with
  | zero => cases h
  | succ fuel ih =>
      obtain ⟨more, rfl⟩ : ∃ more, fuel' = more + 1 := ⟨fuel' - 1, by omega⟩
      have hless : fuel ≤ more := by omega
      exact run_with_mono (fun b t reply hreply => ih hless hreply) h

end Procedure

end Foundations
