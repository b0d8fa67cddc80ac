import Mathlib.Data.Fintype.Card
import Mathlib.Data.Set.Finite.Basic
import Mathlib.Logic.Relation

/-!
# Resolving tasks depth first

A task is resolved from the results of other tasks, one after another up to the first that fails.
Nothing records which tasks are under way, so that the resolution need not end. `Makes` and `Needs`
say what a plan comes to without running it: by `ends_iff_acc` a task ends exactly if no chain of
needs starts at it that goes on forever, and by `acc_iff_no_cycle` this means among finitely many
tasks that none of those it leads to needs itself.
-/

namespace Foundations

open Relation

variable {Task Error Value : Type}

/-- What comes on the way to a result: another task, or something that is known at once. -/
inductive Requirement (Task Error Value : Type) where
  | task (task : Task)
  | known (result : Except Error Value)

/-- How a task is resolved. -/
inductive Plan (Task Error Value : Type) where
  | known (result : Except Error Value)
  | forward (task : Task)
  | build (requirements : List (Requirement Task Error Value))
      (finish : List Value → Except Error Value)

namespace Plan

/-! ## Runs -/

/-- The result of a requirement, where tasks come to what `self` says; none if they do not end. -/
def meet (self : Task → Option (Except Error Value)) :
    Requirement Task Error Value → Option (Except Error Value)
  | .task task => self task
  | .known result => some result

/-- The values of requirements, up to the first error. -/
def gather (self : Task → Option (Except Error Value)) :
    List (Requirement Task Error Value) → Option (Except Error (List Value))
  | [] => some (.ok [])
  | requirement :: rest =>
      match meet self requirement with
      | none => none
      | some (.error error) => some (.error error)
      | some (.ok value) =>
          match gather self rest with
          | none => none
          | some (.error error) => some (.error error)
          | some (.ok values) => some (.ok (value :: values))

/-- The result of a plan. -/
def carryOut (self : Task → Option (Except Error Value)) :
    Plan Task Error Value → Option (Except Error Value)
  | .known result => some result
  | .forward task => self task
  | .build requirements finish =>
      match gather self requirements with
      | none => none
      | some (.error error) => some (.error error)
      | some (.ok values) => some (finish values)

variable (plan : Task → Plan Task Error Value)

/-- The result of a task with at most so many tasks under way at once, itself among them. -/
def resolve : Nat → Task → Option (Except Error Value)
  | 0, _ => none
  | depth + 1, task => carryOut (resolve depth) (plan task)

/-- The task ends, at some depth. -/
def Ends (task : Task) : Prop := ∃ depth result, resolve plan depth task = some result

/-! ## Needs -/

mutual

/-- The task can be resolved, with this value. -/
inductive Makes : Task → Value → Prop where
  | known (task value) : plan task = .known (.ok value) → Makes task value
  | forward (task next value) : plan task = .forward next → Makes next value → Makes task value
  | build (task requirements finish values value) : plan task = .build requirements finish →
      Fills requirements values → finish values = .ok value → Makes task value

/-- The requirements can be met, with these values. -/
inductive Fills : List (Requirement Task Error Value) → List Value → Prop where
  | nil : Fills [] []
  | given (value rest values) : Fills rest values →
      Fills (.known (.ok value) :: rest) (value :: values)
  | made (task value rest values) : Makes task value → Fills rest values →
      Fills (.task task :: rest) (value :: values)

end

/-- The first task asks for the second: it is passed on to it, or requires it after requirements
that can be met. -/
inductive Needs : Task → Task → Prop where
  | forward (outer inner) : plan outer = .forward inner → Needs outer inner
  | build (outer inner before after finish values) :
      plan outer = .build (before ++ .task inner :: after) finish → Fills plan before values →
      Needs outer inner

variable {plan} {self self' : Task → Option (Except Error Value)}

/-! ## Depth -/

theorem meet_mono (hself : ∀ task result, self task = some result → self' task = some result)
    {requirement : Requirement Task Error Value} {result : Except Error Value}
    (h : meet self requirement = some result) : meet self' requirement = some result := by
  cases requirement with
  | task task => exact hself task result h
  | known known => exact h

theorem gather_mono (hself : ∀ task result, self task = some result → self' task = some result)
    {requirements : List (Requirement Task Error Value)} {result : Except Error (List Value)}
    (h : gather self requirements = some result) : gather self' requirements = some result := by
  induction requirements generalizing result with
  | nil => exact h
  | cons requirement rest ih =>
      unfold gather at h ⊢
      cases hfirst : meet self requirement with
      | none => simp [hfirst] at h
      | some first =>
          rw [meet_mono hself hfirst]
          cases first with
          | error error => simpa [hfirst] using h
          | ok value =>
              cases hrest : gather self rest with
              | none => simp [hfirst, hrest] at h
              | some values =>
                  rw [ih hrest]
                  simpa [hfirst, hrest] using h

theorem carry_out_mono (hself : ∀ task result, self task = some result → self' task = some result)
    {p : Plan Task Error Value} {result : Except Error Value}
    (h : carryOut self p = some result) : carryOut self' p = some result := by
  cases p with
  | known known => exact h
  | forward task => exact hself task result h
  | build requirements finish =>
      simp only [carryOut] at h ⊢
      cases hvalues : gather self requirements with
      | none => simp [hvalues] at h
      | some values =>
          rw [gather_mono hself hvalues]
          simpa [hvalues] using h

/-- More depth does not change the result. -/
theorem resolve_mono {depth depth' : Nat} (hle : depth ≤ depth') {task : Task}
    {result : Except Error Value} (h : resolve plan depth task = some result) :
    resolve plan depth' task = some result := by
  induction depth generalizing depth' task result with
  | zero => cases h
  | succ depth ih =>
      obtain ⟨more, rfl⟩ : ∃ more, depth' = more + 1 := ⟨depth' - 1, by omega⟩
      have hless : depth ≤ more := by omega
      exact carry_out_mono (fun inner value hvalue => ih hless hvalue) h

/-! ## What a run makes -/

/-- The values that were gathered meet the requirements. -/
theorem fills_of_gather (hself : ∀ task value, self task = some (.ok value) → Makes plan task value)
    {requirements : List (Requirement Task Error Value)} {values : List Value}
    (h : gather self requirements = some (.ok values)) : Fills plan requirements values := by
  induction requirements generalizing values with
  | nil =>
      cases h
      exact .nil
  | cons requirement rest ih =>
      unfold gather at h
      cases hfirst : meet self requirement with
      | none => simp [hfirst] at h
      | some first =>
          cases first with
          | error error => simp [hfirst] at h
          | ok value =>
              cases hrest : gather self rest with
              | none => simp [hfirst, hrest] at h
              | some result =>
                  cases result with
                  | error error => simp [hfirst, hrest] at h
                  | ok others =>
                      obtain rfl : value :: others = values := by simpa [hfirst, hrest] using h
                      cases requirement with
                      | task task => exact .made _ _ _ _ (hself task value hfirst) (ih hrest)
                      | known known =>
                          cases hfirst
                          exact .given _ _ _ (ih hrest)

theorem makes_of_resolve {depth : Nat} {task : Task} {value : Value}
    (h : resolve plan depth task = some (.ok value)) : Makes plan task value := by
  induction depth generalizing task value with
  | zero => cases h
  | succ depth ih =>
      unfold resolve carryOut at h
      split at h
      · rename_i hplan
        exact .known _ _ (hplan.trans (congrArg Plan.known (Option.some.inj h)))
      · rename_i hplan
        exact .forward _ _ _ hplan (ih h)
      · rename_i requirements finish hplan
        cases hvalues : gather (resolve plan depth) requirements with
        | none => simp [hvalues] at h
        | some result =>
            cases result with
            | error error => simp [hvalues] at h
            | ok values =>
                exact .build _ _ _ _ _ hplan (fills_of_gather (fun _ _ => ih) hvalues)
                  (by simpa [hvalues] using h)

/-- What can be made is made at some depth. -/
theorem resolve_of_makes {task : Task} {value : Value} (h : Makes plan task value) :
    ∃ depth, resolve plan depth task = some (.ok value) := by
  induction h using Makes.rec
    (motive_2 := fun requirements values _ =>
      ∃ depth, gather (resolve plan depth) requirements = some (.ok values)) with
  | known task value hplan => exact ⟨1, by rw [resolve, hplan, carryOut]⟩
  | forward task next value hplan _ ih =>
      obtain ⟨depth, hdepth⟩ := ih
      exact ⟨depth + 1, by rw [resolve, hplan, carryOut, hdepth]⟩
  | build task requirements finish values value hplan _ hfinish ih =>
      obtain ⟨depth, hdepth⟩ := ih
      exact ⟨depth + 1, by rw [resolve, hplan, carryOut, hdepth]; simp [hfinish]⟩
  | nil => exact ⟨0, rfl⟩
  | given value rest values _ ih =>
      obtain ⟨depth, hdepth⟩ := ih
      exact ⟨depth, by simp [gather, meet, hdepth]⟩
  | made task value rest values _ _ ihtask ihrest =>
      obtain ⟨depth, hdepth⟩ := ihtask
      obtain ⟨depth', hdepth'⟩ := ihrest
      refine ⟨max depth depth', ?_⟩
      have htask := resolve_mono (Nat.le_max_left depth depth') hdepth
      have hrest := gather_mono
        (fun _ _ h => resolve_mono (Nat.le_max_right depth depth') h) hdepth'
      simp [gather, meet, htask, hrest]

/-- A task can be resolved to a value exactly if a run gives it. -/
theorem makes_iff {task : Task} {value : Value} :
    Makes plan task value ↔ ∃ depth, resolve plan depth task = some (.ok value) :=
  ⟨resolve_of_makes, fun ⟨_, h⟩ => makes_of_resolve h⟩

/-! ## Ends -/

/-- A task that can be resolved comes to no other result. -/
theorem Makes.unique {task : Task} {value : Value} (h : Makes plan task value) {depth : Nat}
    {result : Except Error Value} (hresult : resolve plan depth task = some result) :
    result = .ok value := by
  obtain ⟨depth', hvalue⟩ := resolve_of_makes h
  have hthis := resolve_mono (Nat.le_max_left depth depth') hresult
  have hother := resolve_mono (Nat.le_max_right depth depth') hvalue
  rw [hthis] at hother
  exact Option.some.inj hother

/-- A task is resolved whose turn comes while requirements are gathered. -/
theorem gather_reaches {depth : Nat} {before after : List (Requirement Task Error Value)}
    {inner : Task} {values : List Value} (hbefore : Fills plan before values)
    {result : Except Error (List Value)}
    (h : gather (resolve plan depth) (before ++ .task inner :: after) = some result) :
    ∃ result, resolve plan depth inner = some result := by
  induction before generalizing values result with
  | nil =>
      cases hinner : resolve plan depth inner with
      | none => simp [gather, meet, hinner] at h
      | some result => exact ⟨result, rfl⟩
  | cons requirement before ih =>
      rw [List.cons_append, gather] at h
      cases hrest : gather (resolve plan depth) (before ++ .task inner :: after) with
      | some others =>
          cases hbefore with
          | given value _ values hfills => exact ih hfills hrest
          | made task value _ values hmakes hfills => exact ih hfills hrest
      | none =>
          -- then the requirement itself has failed, which it can be met without
          cases hbefore with
          | given value _ values hfills => simp [meet, hrest] at h
          | made task value _ values hmakes hfills =>
              cases hfirst : resolve plan depth task with
              | none => simp [meet, hfirst] at h
              | some first =>
                  rw [hmakes.unique hfirst] at hfirst
                  simp [meet, hfirst, hrest] at h

/-- What a task needs ends before the task does. -/
theorem Needs.resolved {depth : Nat} {outer inner : Task} (hneeds : Needs plan outer inner)
    {result : Except Error Value} (h : resolve plan (depth + 1) outer = some result) :
    ∃ result, resolve plan depth inner = some result := by
  rw [resolve] at h
  cases hneeds with
  | forward hplan =>
      rw [hplan] at h
      exact ⟨result, h⟩
  | build before after finish values hplan hfills =>
      simp only [hplan, carryOut] at h
      cases hvalues : gather (resolve plan depth) (before ++ .task inner :: after) with
      | none => simp [hvalues] at h
      | some gathered => exact gather_reaches hfills hvalues

/-- Requirements are gathered if every task ends whose turn comes. -/
theorem gather_ends {requirements : List (Requirement Task Error Value)}
    (hends : ∀ before task after values, requirements = before ++ .task task :: after →
      Fills plan before values → Ends plan task) :
    ∃ depth result, gather (resolve plan depth) requirements = some result := by
  induction requirements with
  | nil => exact ⟨0, _, rfl⟩
  | cons requirement rest ih =>
      cases requirement with
      | known known =>
          cases known with
          | error error => exact ⟨0, .error error, rfl⟩
          | ok value =>
              obtain ⟨depth, result, hrest⟩ := ih fun before task after values heq hfills =>
                hends _ task after _ (congrArg (List.cons _) heq)
                  (.given value before values hfills)
              cases result with
              | error error => exact ⟨depth, .error error, by simp [gather, meet, hrest]⟩
              | ok values => exact ⟨depth, .ok (value :: values), by simp [gather, meet, hrest]⟩
      | task task =>
          obtain ⟨depth, result, htask⟩ := hends [] task rest [] rfl .nil
          cases result with
          | error error => exact ⟨depth, .error error, by simp [gather, meet, htask]⟩
          | ok value =>
              have hmakes := makes_of_resolve htask
              obtain ⟨depth', result, hrest⟩ := ih fun before other after values heq hfills =>
                hends _ other after _ (congrArg (List.cons _) heq)
                  (.made task value before values hmakes hfills)
              have htask' := resolve_mono (Nat.le_max_left depth depth') htask
              have hrest' := gather_mono
                (fun _ _ h => resolve_mono (Nat.le_max_right depth depth') h) hrest
              cases result with
              | error error =>
                  exact ⟨max depth depth', .error error, by simp [gather, meet, htask', hrest']⟩
              | ok values =>
                  exact ⟨max depth depth', .ok (value :: values),
                    by simp [gather, meet, htask', hrest']⟩

/-- A task ends if all do that it needs. -/
theorem ends_of_needs {task : Task} (h : ∀ inner, Needs plan task inner → Ends plan inner) :
    Ends plan task := by
  cases hplan : plan task with
  | known result => exact ⟨1, result, by rw [resolve, hplan, carryOut]⟩
  | forward next =>
      obtain ⟨depth, result, hnext⟩ := h next (.forward _ _ hplan)
      exact ⟨depth + 1, result, by rw [resolve, hplan, carryOut, hnext]⟩
  | build requirements finish =>
      have hgathered : ∃ depth result, gather (resolve plan depth) requirements = some result :=
        gather_ends fun before inner after values heq hfills =>
          h inner (.build _ _ before after finish values (heq ▸ hplan) hfills)
      obtain ⟨depth, result, hvalues⟩ := hgathered
      cases result with
      | error error =>
          exact ⟨depth + 1, .error error, by simp [resolve, hplan, carryOut, hvalues]⟩
      | ok values =>
          exact ⟨depth + 1, finish values, by simp [resolve, hplan, carryOut, hvalues]⟩

/-- A task ends exactly if no chain of needs goes on forever from it. -/
theorem ends_iff_acc {task : Task} :
    Ends plan task ↔ Acc (fun inner outer => Needs plan outer inner) task := by
  constructor
  · intro h
    obtain ⟨depth, result, hresult⟩ := h
    induction depth generalizing task result with
    | zero => cases hresult
    | succ depth ih =>
        refine .intro task ?_
        intro inner hneeds
        obtain ⟨result', hinner⟩ := hneeds.resolved hresult
        exact ih result' hinner
  · intro h
    induction h with
    | intro task _ ih => exact ends_of_needs ih

end Plan

/-! ## Cycles -/

/-- Nothing accessible is on a cycle. -/
theorem not_cycle_of_acc {α : Type} {r : α → α → Prop} {a : α} (h : Acc (fun c b => r b c) a) :
    ¬TransGen r a a := by
  have hclosed : Acc (TransGen (Function.swap r)) a := Acc.transGen h
  clear h
  induction hclosed with
  | intro a _ ih =>
      intro hcycle
      exact ih a (transGen_swap.mpr hcycle) hcycle

theorem acc_of_reach {α : Type} {r : α → α → Prop} {a b : α} (h : Acc (fun c b => r b c) a)
    (hreach : ReflTransGen r a b) : Acc (fun c b => r b c) b := by
  induction hreach with
  | refl => exact h
  | tail _ hstep ih => exact ih.inv hstep

/-- Among finitely many nodes every chain ends exactly if it leads to no cycle. -/
theorem acc_iff_no_cycle {α : Type} {r : α → α → Prop} {a : α} {nodes : Set α}
    (hfinite : nodes.Finite) (hnodes : ∀ b c, ReflTransGen r a b → r b c → b ∈ nodes) :
    Acc (fun c b => r b c) a ↔ ¬∃ b, ReflTransGen r a b ∧ TransGen r b b := by
  constructor
  · intro h hcycle
    obtain ⟨b, hreach, hcycle⟩ := hcycle
    exact not_cycle_of_acc (acc_of_reach h hreach) hcycle
  · intro h
    let reached : Set α := {b | b ∈ nodes ∧ ReflTransGen r a b}
    have : Finite reached := (hfinite.subset fun b hb => hb.1).to_subtype
    let after : reached → reached → Prop := fun c b => TransGen r b c
    have : IsTrans reached after := ⟨fun _ _ _ hfirst hsecond => hsecond.trans hfirst⟩
    have : Std.Irrefl after := ⟨fun b hcycle => h ⟨b, b.2.2, hcycle⟩⟩
    have hwell := Finite.wellFounded_of_trans_of_irrefl after
    -- where a chain leaves the nodes it ends at once
    have hleft : ∀ b, ReflTransGen r a b → b ∉ nodes → Acc (fun c b => r b c) b :=
      fun b hreach hout => .intro b fun c hstep => absurd (hnodes b c hreach hstep) hout
    have hinside : ∀ b : reached, Acc (fun c b => r b c) b.1 := by
      intro b
      induction b using hwell.induction with
      | _ b ih =>
          refine .intro b.1 ?_
          intro c hstep
          have hreach : ReflTransGen r a c := b.2.2.tail hstep
          by_cases hnode : c ∈ nodes
          · exact ih ⟨c, hnode, hreach⟩ (.single hstep)
          · exact hleft c hreach hnode
    by_cases hnode : a ∈ nodes
    · exact hinside ⟨a, hnode, .refl⟩
    · exact hleft a .refl hnode

end Foundations
