import Mathlib.Data.Prod.Lex
import Mathlib.Order.WithBot
import PamDesktop.Launcher.HostCacheRuns

/-!
# The end of runs over the cache of hosts

A run that has not ended can take a step or waits for a lock that another one holds, and each of
its steps brings it nearer to its end. So every run ends, and by the invariant it ends with the
complete host of its version. Read `admitted_runs_execute` for the result.
-/

namespace PamDesktop.Launcher.HostCache

open Foundations DirectoryTree

variable {family : Family} {releases : Releases family} {s s' : Cache} {run run' other : Run}
  {input : Input} {tree tree' : Tree} {name : String}

/-! ## Runs go on -/

/-- The run can take a step. -/
def Cache.Goes (releases : Releases family) (s : Cache) (run : Run) : Prop :=
  ∃ input s', (launchers releases).next s (.step run.token input) = some s'

/-- The run waits for a lock, and who holds it can take a step. -/
def Cache.Waits (releases : Releases family) (s : Cache) (run : Run) : Prop :=
  ∃ lock, run.stage = .locking lock ∧
    ∃ other ∈ s.runs, s.holder lock = some other.token ∧ s.Goes releases other

theorem lists_children (tree : Tree) (place : List String) :
    tree.Lists place (tree.children place).toList :=
  ⟨Finset.nodup_toList _, Finset.toList_toFinset _⟩

/-- A step of a removal can always be taken. -/
theorem removal_goes {frames : List (Frame String)} (hne : frames ≠ []) :
    ∃ listing result, tree.removalStep listing frames = some result := by
  match frames with
  | [] => exact absurd rfl hne
  | .opening place :: rest =>
      refine ⟨(tree.children place).toList, ?_⟩
      rw [removalStep, if_pos (lists_children tree place)]
      split
      · exact ⟨_, rfl⟩
      · exact ⟨_, rfl⟩
  | .within place (name :: names) :: rest =>
      refine ⟨[], ?_⟩
      rw [removalStep]
      split
      · exact ⟨_, rfl⟩
      · exact ⟨_, rfl⟩
  | .within place [] :: rest => exact ⟨[], _, rfl⟩

/-- A run can take a step, but for a lock that another run holds. -/
theorem advance_goes (hlive : run.stage.live = true)
    (hfree : ∀ lock, run.stage = .locking lock → s.holder lock = none) :
    ∃ input s', run.advance releases s input = some s' := by
  simp only [Run.advance]
  split
  · refine ⟨⟨(s.tree.children []).toList, 0, 0, false⟩, ?_⟩
    rw [Run.proceed]
    cases hstage : run.stage with
    | pruning =>
        simp only [if_pos (lists_children s.tree [])]
        split
        · exact ⟨_, rfl⟩
        · exact ⟨_, rfl⟩
    | scanning names versions =>
        cases names with
        | nil => exact ⟨_, rfl⟩
        | cons name names =>
            simp only
            split
            · exact ⟨_, rfl⟩
            · split
              · exact ⟨_, rfl⟩
              · split
                · exact ⟨_, rfl⟩
                · exact ⟨_, rfl⟩
    | sweeping stale =>
        cases stale with
        | nil => exact ⟨_, rfl⟩
        | cons name names =>
            simp only
            split
            · exact ⟨_, rfl⟩
            · exact ⟨_, rfl⟩
    | opening =>
        simp only
        split
        · exact ⟨_, rfl⟩
        · exact ⟨_, rfl⟩
    | locking lock =>
        simp only [hfree lock hstage]
        exact ⟨_, rfl⟩
    | staging =>
        simp only
        split
        · exact ⟨_, rfl⟩
        · exact ⟨_, rfl⟩
    | installing rest =>
        cases rest with
        | nil => exact ⟨_, rfl⟩
        | cons entry rest =>
            simp only [Bool.false_eq_true, if_false]
            split
            · exact ⟨_, rfl⟩
            · exact ⟨_, rfl⟩
    | making =>
        simp only
        split
        · exact ⟨_, rfl⟩
        · split
          · exact ⟨_, rfl⟩
          · exact ⟨_, rfl⟩
    | publishing =>
        simp only
        split
        · exact ⟨_, rfl⟩
        · exact ⟨_, rfl⟩
    | leaving outcome =>
        simp only
        split
        · exact ⟨_, rfl⟩
        · exact ⟨_, rfl⟩
    | ended outcome =>
        rw [hstage] at hlive
        cases hlive
    | killed =>
        rw [hstage] at hlive
        cases hlive
    | _ => exact ⟨_, rfl⟩
  · rename_i frame frames hremoval
    obtain ⟨listing, result, hstep⟩ :
        ∃ listing result, s.tree.removalStep listing run.removal = some result :=
      removal_goes (by rw [hremoval]; exact List.cons_ne_nil _ _)
    refine ⟨⟨listing, 0, 0, false⟩, ?_⟩
    rw [Run.remove, hstep]
    cases result with
    | some result => exact ⟨_, rfl⟩
    | none =>
        cases run.stage with
        | leaving outcome => exact ⟨_, rfl⟩
        | _ => exact ⟨_, rfl⟩

/-- A run that has not ended can go on, or waits for one that can. -/
theorem Inv.goes_or_waits (h : Inv releases s) (hrun : run ∈ s.runs)
    (hlive : run.stage.live = true) : s.Goes releases run ∨ s.Waits releases run := by
  have hgoes : ∀ other ∈ s.runs, other.stage.live = true →
      (∀ lock, other.stage = .locking lock → s.holder lock = none) → s.Goes releases other := by
    intro other hother hlive hfree
    obtain ⟨input, s', hstep⟩ := advance_goes hlive hfree
    refine ⟨input, s', Option.bind_eq_some_iff.mpr ⟨other, ?_, hstep⟩⟩
    cases hfind : s.runs.find? (·.token = other.token) with
    | none => exact absurd (List.find?_eq_none.mp hfind other hother) (by simp)
    | some found =>
        have htoken : found.token = other.token := by simpa using List.find?_some hfind
        rw [h.unique found (List.mem_of_find?_eq_some hfind) other hother htoken]
  by_cases hwaits : ∃ lock token, run.stage = .locking lock ∧ s.holder lock = some token
  · obtain ⟨lock, token, hstage, hheld⟩ := hwaits
    obtain ⟨other, hother, rfl, hholding⟩ := h.held lock token hheld
    refine .inr ⟨lock, hstage, other, hother, hheld, hgoes other hother ?_ fun lock hlocking => ?_⟩
    · cases hkind : other.stage with
      | ended outcome =>
          rw [hkind] at hholding
          cases hholding
      | killed =>
          rw [hkind] at hholding
          cases hholding
      | _ => rfl
    · rw [hlocking] at hholding
      cases hholding
  · refine .inl (hgoes run hrun hlive fun lock hstage => ?_)
    cases hheld : s.holder lock with
    | none => rfl
    | some token => exact absurd ⟨lock, token, hstage, hheld⟩ hwaits

/-! ## Runs end -/

/-- How far a stage is from the end, and what it has to go through. -/
def Stage.rank : Stage → ℕ ×ₗ ℕ
  | .pruning => toLex (17, 0)
  | .scanning names _ => toLex (16, names.length)
  | .sweeping stale => toLex (15, stale.length)
  | .looking => toLex (14, 0)
  | .preparing => toLex (13, 0)
  | .opening => toLex (12, 0)
  | .locking _ => toLex (11, 0)
  | .rechecking => toLex (10, 0)
  | .staging => toLex (9, 0)
  | .installing rest => toLex (8, rest.length)
  | .checking => toLex (7, 0)
  | .making => toLex (6, 0)
  | .publishing => toLex (5, 0)
  | .unlocking _ => toLex (4, 0)
  | .unlinking => toLex (3, 0)
  | .executing => toLex (2, 0)
  | .leaving _ => toLex (1, 0)
  | .ended _ => toLex (0, 0)
  | .killed => toLex (0, 0)

/-- The stage, what the shutdown function has to remove, and what is left of a removal. -/
def Run.rank (tree : Tree) (run : Run) : (ℕ ×ₗ ℕ) ×ₗ ℕ ×ₗ ℕ :=
  toLex (run.stage.rank, toLex (run.registered.toNat, tree.cost run.removal))

/-- The rank of the run that is known by a token. Before it starts it has all to do. -/
def Cache.rank (s : Cache) (token : Token) : WithTop ((ℕ ×ₗ ℕ) ×ₗ ℕ ×ₗ ℕ) :=
  match s.runs.find? (·.token = token) with
  | none => ⊤
  | some run => run.rank s.tree

theorem rank_stage (hless : run'.stage.rank < run.stage.rank) : run'.rank tree' < run.rank tree :=
  Prod.Lex.toLex_lt_toLex.mpr (.inl hless)

theorem rank_class {a b c d : ℕ} (hless : a < c) : (toLex (a, b) : ℕ ×ₗ ℕ) < toLex (c, d) :=
  Prod.Lex.toLex_lt_toLex.mpr (.inl hless)

theorem rank_count {a b d : ℕ} (hless : b < d) : (toLex (a, b) : ℕ ×ₗ ℕ) < toLex (a, d) :=
  Prod.Lex.toLex_lt_toLex.mpr (.inr ⟨rfl, hless⟩)

theorem live_rank {stage : Stage} (hlive : stage.live = true) :
    Stage.killed.rank < stage.rank := by
  cases stage with
  | ended outcome => cases hlive
  | killed => cases hlive
  | _ => exact rank_class (by omega)

/-- The run comes to its end because a download or the extraction has failed. -/
def Stage.failed : Stage → Bool
  | .leaving .failed => true
  | .ended .failed => true
  | _ => false

theorem ended_failed (outcome : Outcome) :
    (Stage.ended outcome).failed = (Stage.leaving outcome).failed := by
  cases outcome <;> rfl

/-- The step of a run lowers its rank, and lets it fail only on a fault. -/
def Lowers (s : Cache) (run : Run) (input : Input) (s' : Cache) : Prop :=
  ∃ run', run'.token = run.token ∧ s'.runs = (s.put run').runs ∧
    run'.rank s'.tree < run.rank s.tree ∧
    (run'.stage.failed = true → run.stage.failed = true ∨ input.fault = true)

theorem remove_lowers (hcareful : run.Careful s input) (hstep : run.remove s input = some s') :
    Lowers s run input s' := by
  rw [Run.remove] at hstep
  split at hstep
  · cases hstep
  · rename_i tree frames hremoval
    cases hstep
    exact ⟨{ run with removal := frames }, rfl, rfl,
      Prod.Lex.toLex_lt_toLex.mpr (.inr ⟨rfl, rank_count (removal_cost hremoval)⟩), .inl⟩
  · rename_i hremoval
    obtain ⟨place, rest, hframes, hgone⟩ := removal_thrown hremoval
    rw [Run.Careful, hframes] at hcareful
    have hleaving := hcareful.resolve_right (by rw [hgone]; exact Bool.false_ne_true)
    split at hstep
    · rename_i outcome hstage
      cases hstep
      exact ⟨{ run with removal := [], stage := .ended outcome }, rfl, rfl,
        rank_stage (by rw [hstage]; exact rank_class Nat.zero_lt_one),
        fun hfailed => .inl (by rw [hstage, ← ended_failed]; exact hfailed)⟩
    · rename_i hstage
      rw [Stage.isLeaving.eq_def] at hleaving
      split at hleaving
      · rename_i outcome hstage'
        exact absurd hstage' (hstage outcome)
      · cases hleaving

theorem proceed_lowers (hstep : run.proceed releases s input = some s') :
    Lowers s run input s' := by
  have hto : ∀ {stage : Stage} {registered : Bool} {removal : List (Frame String)},
      s'.runs = (s.put { run with
        stage := stage, registered := registered, removal := removal }).runs →
      stage.rank < run.stage.rank →
      (stage.failed = true → run.stage.failed = true ∨ input.fault = true) →
      Lowers s run input s' :=
    fun {stage registered removal} hruns hless hfailed =>
      ⟨{ run with stage := stage, registered := registered, removal := removal }, rfl, hruns,
        rank_stage hless, hfailed⟩
  have hsafe : ∀ {stage : Stage} {registered : Bool} {removal : List (Frame String)},
      s'.runs = (s.put { run with
        stage := stage, registered := registered, removal := removal }).runs →
      stage.rank < run.stage.rank → stage.failed = false → Lowers s run input s' :=
    fun hruns hless hfails =>
      hto hruns hless fun hfailed => by rw [hfails] at hfailed; cases hfailed
  have hchoice : ∀ {first second : Stage} {c : Prop} [Decidable c],
      s'.runs = (s.put { run with stage := if c then first else second }).runs →
      first.rank < run.stage.rank → second.rank < run.stage.rank → first.failed = false →
      second.failed = false → Lowers s run input s' := by
    intro first second c _ hruns hfirst hsecond hfails hfails'
    split at hruns
    · exact hto hruns hfirst fun hfailed => by rw [hfails] at hfailed; cases hfailed
    · exact hto hruns hsecond fun hfailed => by rw [hfails'] at hfailed; cases hfailed
  rw [Run.proceed] at hstep
  cases hstage : run.stage with
  | pruning =>
      rw [hstage] at hsafe
      simp only [hstage] at hstep
      split at hstep
      · cases hstep
        exact hsafe rfl (rank_class (by omega)) rfl
      · split at hstep
        · cases hstep
          exact hsafe rfl (rank_class (by omega)) rfl
        · cases hstep
  | scanning names versions =>
      rw [hstage] at hsafe
      cases names with
      | nil =>
          simp only [hstage] at hstep
          cases hstep
          exact hsafe rfl (rank_class (by omega)) rfl
      | cons name names =>
          have hless : (Stage.scanning names versions).rank <
              (Stage.scanning (name :: names) versions).rank :=
            rank_count (Nat.lt_succ_self _)
          simp only [hstage] at hstep
          split at hstep
          · cases hstep
            exact hsafe rfl hless rfl
          · split at hstep
            · cases hstep
              exact hsafe rfl hless rfl
            · split at hstep
              · cases hstep
                exact hsafe rfl hless rfl
              · cases hstep
                exact hsafe rfl hless rfl
  | sweeping stale =>
      rw [hstage] at hsafe
      cases stale with
      | nil =>
          simp only [hstage] at hstep
          cases hstep
          exact hsafe rfl (rank_class (by omega)) rfl
      | cons name names =>
          simp only [hstage] at hstep
          split at hstep
          · cases hstep
            exact hsafe rfl (rank_count (Nat.lt_succ_self _)) rfl
          · cases hstep
            exact hsafe rfl (rank_count (Nat.lt_succ_self _)) rfl
  | looking =>
      rw [hstage] at hchoice
      simp only [hstage] at hstep
      cases hstep
      exact hchoice rfl (rank_class (by omega)) (rank_class (by omega)) rfl rfl
  | preparing =>
      rw [hstage] at hto hsafe
      simp only [hstage] at hstep
      split at hstep
      · rename_i hfault
        cases hstep
        exact hto rfl (rank_class (by omega)) fun _ => .inr hfault
      · cases hstep
        exact hsafe rfl (rank_class (by omega)) rfl
  | opening =>
      rw [hstage] at hsafe
      simp only [hstage] at hstep
      split at hstep
      · cases hstep
        exact hsafe rfl (rank_class (by omega)) rfl
      · cases hstep
        exact hsafe rfl (rank_class (by omega)) rfl
  | locking lock =>
      rw [hstage] at hsafe
      simp only [hstage] at hstep
      split at hstep
      · cases hstep
      · cases hstep
        exact hsafe rfl (rank_class (by omega)) rfl
  | rechecking =>
      rw [hstage] at hchoice
      simp only [hstage] at hstep
      cases hstep
      exact hchoice rfl (rank_class (by omega)) (rank_class (by omega)) rfl rfl
  | staging =>
      rw [hstage] at hsafe
      simp only [hstage] at hstep
      split at hstep
      · cases hstep
        exact hsafe rfl (rank_class (by omega)) rfl
      · cases hstep
        exact hsafe rfl (rank_class (by omega)) rfl
  | installing rest =>
      rw [hstage] at hto hsafe
      cases rest with
      | nil =>
          simp only [hstage] at hstep
          cases hstep
          exact hsafe rfl (rank_class (by omega)) rfl
      | cons entry rest =>
          simp only [hstage] at hstep
          split at hstep
          · rename_i hfault
            cases hstep
            exact hto rfl (rank_class (by omega)) fun _ => .inr hfault
          · split at hstep
            · cases hstep
              exact hsafe rfl (rank_count (Nat.lt_succ_self _)) rfl
            · cases hstep
              exact hsafe rfl (rank_class (by omega)) rfl
  | checking =>
      rw [hstage] at hchoice
      simp only [hstage] at hstep
      cases hstep
      exact hchoice rfl (rank_class (by omega)) (rank_class (by omega)) rfl rfl
  | making =>
      rw [hstage] at hsafe
      simp only [hstage] at hstep
      split at hstep
      · cases hstep
        exact hsafe rfl (rank_class (by omega)) rfl
      · split at hstep
        · cases hstep
          exact hsafe rfl (rank_class (by omega)) rfl
        · cases hstep
          exact hsafe rfl (rank_class (by omega)) rfl
  | publishing =>
      rw [hstage] at hsafe hchoice
      simp only [hstage] at hstep
      split at hstep
      · cases hstep
        exact hsafe rfl (rank_class (by omega)) rfl
      · cases hstep
        exact hchoice rfl (rank_class (by omega)) (rank_class (by omega)) rfl rfl
  | unlocking published =>
      rw [hstage] at hchoice
      simp only [hstage] at hstep
      cases hstep
      exact hchoice rfl (rank_class (by omega)) (rank_class (by omega)) rfl rfl
  | unlinking =>
      rw [hstage] at hsafe
      simp only [hstage] at hstep
      cases hstep
      exact hsafe rfl (rank_class (by omega)) rfl
  | executing =>
      rw [hstage] at hsafe
      simp only [hstage] at hstep
      cases hstep
      exact hsafe rfl (rank_class (by omega)) rfl
  | leaving outcome =>
      simp only [hstage] at hstep
      split at hstep
      · rename_i hregistered
        cases hstep
        refine ⟨{ run with
          stage := .leaving outcome, registered := false, removal := [.opening [run.work]] },
          rfl, rfl, ?_, fun hfailed => .inl (by rw [hstage]; exact hfailed)⟩
        rw [Run.rank, Run.rank, hregistered.1, hstage]
        exact Prod.Lex.toLex_lt_toLex.mpr (.inr ⟨rfl, rank_class Nat.zero_lt_one⟩)
      · cases hstep
        rw [hstage] at hto
        exact hto rfl (rank_class (by omega)) fun hfailed => .inl (ended_failed outcome ▸ hfailed)
  | ended outcome =>
      rw [hstage] at hstep
      cases hstep
  | killed =>
      rw [hstage] at hstep
      cases hstep

/-- A step of a run brings it nearer to its end. -/
theorem advance_lowers (hcareful : run.Careful s input)
    (hstep : run.advance releases s input = some s') : Lowers s run input s' := by
  rw [Run.advance] at hstep
  split at hstep
  · exact proceed_lowers hstep
  · exact remove_lowers hcareful hstep

/-- What is found of the runs after one of them has moved on. -/
theorem find_put (hrun : run ∈ s.runs) (htoken : run'.token = run.token) (token : Token) :
    (s.put run').runs.find? (·.token = token) =
      if token = run.token then some run' else s.runs.find? (·.token = token) := by
  split
  · rename_i hsame
    cases hfind : (s.put run').runs.find? (·.token = token) with
    | none =>
        have hmem := put_mem hrun htoken
        exact absurd (List.find?_eq_none.mp hfind run' hmem) (by simp [htoken, hsame])
    | some found =>
        have hfound : found.token = token := by simpa using List.find?_some hfind
        rcases mem_put (List.mem_of_find?_eq_some hfind) with rfl | ⟨-, hne⟩
        · rfl
        · exact absurd (hfound.trans hsame) (htoken ▸ hne)
  · rename_i hdiffer
    show (s.runs.map _).find? _ = _
    rw [List.find?_map]
    have hpred : ((fun other : Run => decide (other.token = token)) ∘ fun other =>
        if other.token = run'.token then run' else other) =
          fun other => decide (other.token = token) := by
      funext other
      show decide ((if other.token = run'.token then run' else other).token = token) = _
      split
      · rename_i hother
        rw [hother]
      · rfl
    rw [hpred]
    cases hfind : s.runs.find? (·.token = token) with
    | none => rfl
    | some found =>
        have hfound : found.token = token := by simpa using List.find?_some hfind
        have hne : found.token ≠ run'.token := by
          rw [hfound, htoken]
          exact hdiffer
        rw [Option.map_some, if_neg hne]

/-- What is left of the removal of a run does not grow by what others do. -/
theorem Effect.rank_le (heffect : Effect s run tree) (hself : run.Ok releases s)
    (hother : other ∈ s.runs) (hok : other.Ok releases s) :
    other.rank tree ≤ other.rank s.tree := by
  refine Prod.Lex.toLex_le_toLex.mpr (.inr ⟨rfl, Prod.Lex.toLex_le_toLex.mpr (.inr ⟨rfl, ?_⟩)⟩)
  refine cost_mono fun frame hframe place hprefix hfound => ?_
  obtain ⟨name, hinside, -⟩ := hok.sweeps.resolve_left (List.ne_nil_of_mem hframe)
  obtain ⟨rest, rfl⟩ := (hinside frame hframe).trans hprefix
  have hremoves : other.Removes name :=
    (removes_iff hok.sweeps).mpr ⟨List.ne_nil_of_mem hframe, hinside⟩
  rcases heffect.fewer hself hother hremoves rest with hsame | hnone
  · exact fun hgone => hfound (hsame.trans hgone)
  · exact absurd hnone hfound

/-- After a step of a run, every other run has as much to do as before, or less. -/
theorem rank_of_moved (h : Inv releases s) (hrun : run ∈ s.runs) (htoken : run'.token = run.token)
    (hruns : s'.runs = (s.put run').runs) (heffect : Effect s run s'.tree) (token : Token) :
    s'.rank token ≤ s.rank token ∨ token = run.token := by
  by_cases hsame : token = run.token
  · exact .inr hsame
  · left
    rw [Cache.rank, Cache.rank, hruns, find_put hrun htoken, if_neg hsame]
    cases hfind : s.runs.find? (·.token = token) with
    | none => exact le_rfl
    | some other =>
        have hother := List.mem_of_find?_eq_some hfind
        exact WithTop.coe_le_coe.mpr
          (heffect.rank_le (h.ok run hrun) hother (h.ok other hother))

theorem rank_of_run (h : Inv releases s) (hrun : run ∈ s.runs) :
    s.rank run.token = run.rank s.tree := by
  rw [Cache.rank]
  cases hfind : s.runs.find? (·.token = run.token) with
  | none => exact absurd (List.find?_eq_none.mp hfind run hrun) (by simp)
  | some found =>
      have hfound : found.token = run.token := by simpa using List.find?_some hfind
      rw [h.unique found (List.mem_of_find?_eq_some hfind) run hrun hfound]

/-- No admitted step raises the rank of a run, and its own steps lower it. -/
theorem next_rank (h : Inv releases s) {event : Event} (hadmitted : Admitted s event)
    (hnext : (launchers releases).next s event = some s') (token : Token) :
    s'.rank token ≤ s.rank token ∧
      ((∃ input, event = .step token input) → s'.rank token < s.rank token) := by
  cases event with
  | start started version target =>
      obtain ⟨-, hsome⟩ := Option.ite_none_left_eq_some.mp hnext
      obtain rfl := Option.some.inj hsome
      refine ⟨?_, fun ⟨input, hevent⟩ => nomatch hevent⟩
      rw [Cache.rank, Cache.rank]
      cases hfind : s.runs.find? (·.token = token) with
      | none => exact le_top
      | some run =>
          rw [List.find?_append, hfind]
          exact le_rfl
  | step stepped input =>
      obtain ⟨run, hfind, hstep⟩ := Option.bind_eq_some_iff.mp hnext
      have hrun := List.mem_of_find?_eq_some hfind
      obtain rfl : run.token = stepped := by simpa using List.find?_some hfind
      have hcareful := hadmitted run hrun rfl
      have hlower : s'.rank run.token < s.rank run.token := by
        obtain ⟨run', htoken, hruns, hless, -⟩ := advance_lowers hcareful hstep
        rw [rank_of_run h hrun, Cache.rank, hruns, find_put hrun htoken, if_pos rfl]
        exact WithTop.coe_lt_coe.mpr hless
      obtain ⟨run', hmoved⟩ := advance_moved h hrun hcareful hstep
      rcases rank_of_moved h hrun hmoved.token hmoved.runs hmoved.effect token with hle | rfl
      · refine ⟨hle, fun ⟨other, hevent⟩ => ?_⟩
        obtain rfl : run.token = token := (Event.step.inj hevent).1
        exact hlower
      · exact ⟨hlower.le, fun _ => hlower⟩
  | kill killed bytes =>
      obtain ⟨run, hfind, rfl⟩ := Option.map_eq_some_iff.mp hnext
      have hrun := List.mem_of_find?_eq_some hfind
      obtain ⟨rfl, hlive⟩ : run.token = killed ∧ run.stage.live = true := by
        simpa using List.find?_some hfind
      have hmoved := kill_moved ⟨[], 0, 0, false⟩ h hrun (hadmitted run hrun rfl) bytes
      refine ⟨?_, fun ⟨input, hevent⟩ => nomatch hevent⟩
      rcases rank_of_moved h hrun hmoved.token hmoved.runs hmoved.effect token with hle | rfl
      · exact hle
      · rw [rank_of_run h hrun, Cache.rank, hmoved.runs, find_put hrun hmoved.token,
          if_pos rfl]
        exact (WithTop.coe_lt_coe.mpr (rank_stage (live_rank hlive))).le


/-! ## Complete hosts -/

/-- A run fails only on a fault of its own. -/
theorem next_failed {event : Event} (hadmitted : Admitted s event)
    (hnext : (launchers releases).next s event = some s') (hother : other ∈ s'.runs)
    (hfailed : other.stage.failed = true) :
    (∃ old ∈ s.runs, old.token = other.token ∧ old.stage.failed = true) ∨
      ∃ input, event = .step other.token input ∧ input.fault = true := by
  cases event with
  | start token version target =>
      obtain ⟨-, hsome⟩ := Option.ite_none_left_eq_some.mp hnext
      obtain rfl := Option.some.inj hsome
      rcases List.mem_append.mp hother with hold | hnew
      · exact .inl ⟨other, hold, rfl, hfailed⟩
      · rw [List.mem_singleton.mp hnew] at hfailed
        cases hfailed
  | step token input =>
      obtain ⟨run, hfind, hstep⟩ := Option.bind_eq_some_iff.mp hnext
      have hrun := List.mem_of_find?_eq_some hfind
      obtain rfl : run.token = token := by simpa using List.find?_some hfind
      obtain ⟨run', htoken, hruns, -, hfault⟩ := advance_lowers (hadmitted run hrun rfl) hstep
      rw [hruns] at hother
      rcases mem_put hother with rfl | ⟨hold, -⟩
      · rcases hfault hfailed with hbefore | hfault
        · exact .inl ⟨run, hrun, htoken.symm, hbefore⟩
        · exact .inr ⟨input, by rw [htoken], hfault⟩
      · exact .inl ⟨other, hold, rfl, hfailed⟩
  | kill token bytes =>
      obtain ⟨run, hfind, rfl⟩ := Option.map_eq_some_iff.mp hnext
      rcases mem_put hother with rfl | ⟨hold, -⟩
      · cases hfailed
      · exact .inl ⟨other, hold, rfl, hfailed⟩

theorem play_failed {events : List Event}
    (hadmitted : (launchers releases).Throughout Admitted s events)
    (hplay : (launchers releases).play s events = some s') (hother : other ∈ s'.runs)
    (hfailed : other.stage.failed = true) :
    (∃ old ∈ s.runs, old.token = other.token ∧ old.stage.failed = true) ∨
      ∃ input, Event.step other.token input ∈ events ∧ input.fault = true := by
  induction events generalizing s with
  | nil =>
      obtain rfl := Option.some.inj hplay
      exact .inl ⟨other, hother, rfl, hfailed⟩
  | cons event events ih =>
      obtain ⟨middle, hnext, hrest⟩ := Option.bind_eq_some_iff.mp hplay
      rcases ih (hadmitted.2 middle hnext) hrest with ⟨between, hmem, htoken, hbetween⟩ | hlater
      · rcases next_failed hadmitted.1 hnext hmem hbetween with ⟨old, hold, hsame, hbefore⟩ | hnow
        · exact .inl ⟨old, hold, hsame.trans htoken, hbefore⟩
        · obtain ⟨input, rfl, hfault⟩ := hnow
          exact .inr ⟨input, htoken ▸ List.mem_cons_self, hfault⟩
      · obtain ⟨input, hmem, hfault⟩ := hlater
        exact .inr ⟨input, List.mem_cons_of_mem _ hmem, hfault⟩

/-- In every play of admitted steps a run that has not ended can go on or waits for one that can,
and a run that has ended has executed the complete host of its version, unless its download or
extraction failed. No run goes on for ever. -/
theorem admitted_runs_execute (releases : Releases family) :
    (∀ events s, (launchers releases).Throughout Admitted Cache.empty events →
      (launchers releases).play Cache.empty events = some s → ∀ run ∈ s.runs,
        (run.stage.live = true → s.Goes releases run ∨ s.Waits releases run) ∧
        ∀ outcome, run.stage = .ended outcome →
          (∃ host, outcome = .executed host ∧
            Standing host (releases run.version run.target).items) ∨
          ∃ input, Event.step run.token input ∈ events ∧ input.fault = true) ∧
      ∀ states events, states 0 = Cache.empty → (launchers releases).Endless states events →
        (∀ n, ∀ event ∈ events n, Admitted (states n) event) → ∀ token, ∃ bound, ∀ n, bound ≤ n →
          ∀ event ∈ events n, ¬ ∃ input, event = .step token input := by
  refine ⟨fun events s hadmitted hplay run hrun => ?_,
    fun states events hfirst hendless hadmitted token => ?_⟩
  · have hinv : Inv releases s :=
      (hadmitted.always inv_empty fun s event s' h hadmitted hnext =>
        next_inv h hadmitted hnext).last hplay
    refine ⟨hinv.goes_or_waits hrun, fun outcome hstage => ?_⟩
    have hsound := (hinv.ok run hrun).sound
    rw [Run.Sound, hstage] at hsound
    cases outcome with
    | executed host => exact .inl ⟨host, rfl, hsound⟩
    | failed =>
        rcases play_failed hadmitted hplay hrun (by rw [hstage]; rfl) with ⟨old, hold, -⟩ | hfault
        · exact absurd hold List.not_mem_nil
        · exact .inr hfault
    | refused message => exact hsound.elim
    | crashed => exact hsound.elim
  · have hinv : ∀ n, Inv releases (states n) :=
      hendless.always (hfirst ▸ inv_empty) hadmitted fun s event s' h hadmitted hnext =>
        next_inv h hadmitted hnext
    exact hendless.lowered_finitely_often (fun s : Cache => s.rank token)
      fun n event hnext hevent => next_rank (hinv n) (hadmitted n event hevent) hnext token

/-! ## Two caches -/

instance (s : Cache) (run : Run) (input : Input) : Decidable (run.Careful s input) :=
  match hremoval : run.removal with
  | .opening place :: _ =>
      decidable_of_iff (run.stage.isLeaving = true ∨ s.tree.isDirectory place = true)
        (by rw [Run.Careful, hremoval])
  | .within _ _ :: _ => .isTrue (by rw [Run.Careful, hremoval]; trivial)
  | [] =>
      match hstage : run.stage with
      | .scanning (name :: _) _ =>
          decidable_of_iff (isStaging name = true → input.modified + 86400 < input.time →
            ∀ other ∈ s.runs, other.stage.staged = true → other.work ≠ name)
            (by rw [Run.Careful, hremoval, hstage])
      | .sweeping (name :: _) =>
          decidable_of_iff (∀ other ∈ s.runs, other.stage.engaged = true → other.version.1 ≠ name)
            (by rw [Run.Careful, hremoval, hstage])
      | .looking =>
          decidable_of_iff (∀ other ∈ s.runs, ¬ other.Removes run.version.1)
            (by rw [Run.Careful, hremoval, hstage])
      | .rechecking =>
          decidable_of_iff (∀ other ∈ s.runs, ¬ other.Removes run.version.1)
            (by rw [Run.Careful, hremoval, hstage])
      | .making =>
          decidable_of_iff (∀ other ∈ s.runs, ¬ other.Removes run.version.1)
            (by rw [Run.Careful, hremoval, hstage])
      | .scanning [] _ | .sweeping [] | .pruning | .preparing | .opening | .locking _ | .staging
      | .installing _ | .checking | .publishing | .unlocking _ | .unlinking | .executing
      | .leaving _ | .ended _ | .killed => .isTrue (by rw [Run.Careful, hremoval, hstage]; trivial)

instance (s : Cache) : ∀ event, Decidable (Admitted s event)
  | .start _ _ _ => .isTrue trivial
  | .step token input =>
      inferInstanceAs (Decidable (∀ run ∈ s.runs, run.token = token → run.Careful s input))
  | .kill token _ =>
      inferInstanceAs (Decidable (∀ run ∈ s.runs, run.token = token →
        ∀ frame ∈ run.removal, frame.location.head?.all isStaging = true))

/-- A host with a licence. -/
def smallPackage : Package .linux where
  archive := [3]
  checksum := [4]
  tar := [5]
  items := [(["bin"], .directory), (binary .linux, .file [1]), (["LICENSE"], .file [2])]
  creatable := ⟨List.cons_ne_nil _ _, .inl rfl, nofun, List.cons_ne_nil _ _,
    .inr List.mem_cons_self, by simp [binary], List.cons_ne_nil _ _, .inl rfl, by simp [binary],
    trivial⟩
  host := ⟨[1], List.mem_cons_of_mem _ List.mem_cons_self⟩

def smallReleases : Releases .linux := fun _ _ => smallPackage

def linuxTarget : String := "x86_64-unknown-linux-gnu"

def oldest : Version := ⟨"1.0.0", by decide⟩

def older : Version := ⟨"1.0.1", by decide⟩

def recent : Version := ⟨"1.0.2", by decide⟩

def latest : Version := ⟨"1.0.3", by decide⟩

/-- The token of a run, for a digit. -/
def tokenOf (digit : Char) : Token := ⟨String.ofList (List.replicate 16 digit), by simp⟩

/-- A step of a run in which a directory is listed. -/
def lists (token : Token) (listing : List String) : Event := .step token ⟨listing, 0, 100, false⟩

/-- So many steps of a run in which no directory is listed. -/
def goesOn (token : Token) (count : Nat) : List Event :=
  List.replicate count (.step token ⟨[], 0, 100, false⟩)

/-- A run that installs its version, from the search for the host to the end. -/
def installs (token : Token) (version : Version) : List Event :=
  let package := packageName version.1 linuxTarget
  goesOn token 21 ++
    [lists token [package ++ ".tar.gz", package ++ ".tar.gz.sha256", package ++ ".tar"]] ++
    goesOn token 5

/-- A run over a new cache. -/
def firstRun : List Event :=
  .start (tokenOf '0') oldest linuxTarget :: goesOn (tokenOf '0') 1 ++ installs (tokenOf '0') oldest

/-- Whether the host that a run has executed has its licence. -/
def licensed (token : Token) (s : Cache) : Option Bool :=
  match (s.runs.find? (·.token = token)).map Run.stage with
  | some (.ended (.executed host)) => some (host ["LICENSE"]).isSome
  | _ => none

/-- The oldest of four versions is removed, but not to the end. -/
def killedPruning : List Event :=
  firstRun ++
  .start (tokenOf '1') older linuxTarget :: lists (tokenOf '1') ["1.0.0"] ::
    goesOn (tokenOf '1') 3 ++ installs (tokenOf '1') older ++
  .start (tokenOf '2') recent linuxTarget :: lists (tokenOf '2') ["1.0.1", "1.0.0"] ::
    goesOn (tokenOf '2') 4 ++ installs (tokenOf '2') recent ++
  .start (tokenOf '3') latest linuxTarget :: lists (tokenOf '3') ["1.0.2", "1.0.1", "1.0.0"] ::
    .step (tokenOf '3') ⟨[], 30, 100, false⟩ :: .step (tokenOf '3') ⟨[], 20, 100, false⟩ ::
    .step (tokenOf '3') ⟨[], 10, 100, false⟩ :: goesOn (tokenOf '3') 2 ++
  lists (tokenOf '3') [linuxTarget] :: goesOn (tokenOf '3') 1 ++
  lists (tokenOf '3') ["LICENSE", "bin"] :: goesOn (tokenOf '3') 1 ++
  .kill (tokenOf '3') none :: .start (tokenOf '4') oldest linuxTarget ::
    lists (tokenOf '4') ["1.0.2", "1.0.1", "1.0.0"] :: goesOn (tokenOf '4') 8

/-- Nothing goes wrong with a download or an extraction. -/
def faultless (events : List Event) : Bool :=
  events.all fun
    | .step _ input => !input.fault
    | _ => true

theorem no_fault {events : List Event} (h : faultless events = true) {token : Token} {input : Input}
    (hmem : .step token input ∈ events) : input.fault = false := by
  have hstep := List.all_eq_true.mp h _ hmem
  exact Bool.not_eq_true' _ ▸ hstep

theorem licensed_run {token : Token} {found : Bool} (h : licensed token s = some found) :
    ∃ run ∈ s.runs, run.token = token ∧ ∃ host, run.stage = .ended (.executed host) ∧
      (host ["LICENSE"]).isSome = found := by
  rw [licensed.eq_def] at h
  split at h
  · rename_i host hstage
    obtain ⟨run, hfind, hrun⟩ := Option.map_eq_some_iff.mp hstage
    exact ⟨run, List.mem_of_find?_eq_some hfind, by simpa using List.find?_some hfind, host, hrun,
      Option.some.inj h⟩
  · cases h

/-- The first run over a cache executes a complete host. -/
theorem first_run_executes :
    ∃ s run host, (launchers smallReleases).play Cache.empty firstRun = some s ∧ run ∈ s.runs ∧
      run.stage = .ended (.executed host) ∧ Standing host smallPackage.items := by
  have hplay : ((launchers smallReleases).play Cache.empty firstRun).bind (licensed (tokenOf '0')) =
      some true := by decide +kernel
  have hadmitted : (launchers smallReleases).Throughout Admitted Cache.empty firstRun := by
    decide +kernel
  obtain ⟨s, hplay, hlicensed⟩ := Option.bind_eq_some_iff.mp hplay
  obtain ⟨run, hrun, -, host, hstage, -⟩ := licensed_run hlicensed
  obtain ⟨-, hends⟩ := (admitted_runs_execute smallReleases).1 firstRun s hadmitted hplay run hrun
  rcases hends _ hstage with ⟨host', heq, hstanding⟩ | ⟨input, hmem, hfault⟩
  · obtain rfl := Outcome.executed.inj heq
    exact ⟨s, run, host, hplay, hrun, hstage, hstanding⟩
  · rw [no_fault (by rfl) hmem] at hfault
    cases hfault

/-- After a removal that was killed, a run executes what was left of its version. -/
theorem killed_pruning_breaks_host :
    faultless killedPruning = true ∧
      ∃ s run host, (launchers smallReleases).play Cache.empty killedPruning = some s ∧
        run ∈ s.runs ∧ run.token = tokenOf '4' ∧ run.stage = .ended (.executed host) ∧
        ¬ Standing host (smallReleases run.version run.target).items := by
  have hplay : ((launchers smallReleases).play Cache.empty killedPruning).bind
      (licensed (tokenOf '4')) = some false := by decide +kernel
  obtain ⟨s, hplay, hlicensed⟩ := Option.bind_eq_some_iff.mp hplay
  obtain ⟨run, hrun, htoken, host, hstage, hmissing⟩ := licensed_run hlicensed
  refine ⟨rfl, s, run, host, hplay, hrun, htoken, hstage, fun hstanding => ?_⟩
  have hmem : (["LICENSE"], .file [2]) ∈ smallPackage.items :=
    List.mem_cons_of_mem _ (List.mem_cons_of_mem _ List.mem_cons_self)
  rw [(hstanding.exact _ _ (List.cons_ne_nil _ _)).mpr hmem] at hmissing
  cases hmissing

end PamDesktop.Launcher.HostCache
