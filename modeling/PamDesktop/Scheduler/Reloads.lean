import PamDesktop.Scheduler.Jobs

/-!
# Schedules that follow one another

`replace_scheduler` starts the next schedule while the threads of the last one may still be alive,
and only then drops the last one. A generation is a schedule that was started since the gateway
is there. The watcher makes one reload at a time, so the steps of a reload are a stage of the state
while the threads of all generations go on in between; `one_generation_alive_iff` is about every
order of these steps.
-/

namespace PamDesktop.Scheduler

open Foundations Protocol Worker

variable {Value : Type}

/-- Where the thread that replaces or drops schedules is: at no such thing, in
`start_with_dispatcher` with these jobs left, or in the drop of this generation. -/
inductive ReloadStage where
  | idle
  | spawning (jobs : List BackgroundJobConfig)
  | dropping (generation : Nat)
deriving DecidableEq

/-- All generations, oldest first, the one in the slot of the gateway and the stage. -/
structure Reloads (Value : Type) where
  generations : List BackgroundScheduler
  installed : Option Nat
  stage : ReloadStage
  world : JobWorld Value

/-- A job thread takes a step, or the thread that replaces schedules does: it enters
`replace_scheduler`, starts the next thread, stores the new schedule, takes the schedule out of the
slot (at the end of the gateway, or because a background agent keeps the schedule from now on), or
goes on with a drop. -/
inductive ReloadEvent (Value : Type) where
  | run (generation index : Nat) (moment : Moment Value)
  | replace (jobs : List BackgroundJobConfig) (applicationId : String)
  | spawn (started : Bool)
  | store
  | take
  | drop

namespace Reloads

/-- A schedule that leaves the slot is dropped. -/
def dropInstalled (installed : Option Nat) : ReloadStage :=
  match installed with
  | none => .idle
  | some generation => .dropping generation

/-- The first part of `replace_scheduler`. A journal that does not open ends the reload. -/
def replace (reloads : Reloads Value) (base : Option String) (dispatcher : EffectDispatcher)
    (jobs : List BackgroundJobConfig) (applicationId : String) : Reloads Value :=
  match BackgroundScheduler.opened base reloads.world.disk dispatcher applicationId with
  | .error _ => reloads
  | .ok scheduler =>
      { reloads with
          generations := reloads.generations ++ [scheduler], stage := .spawning jobs }

/-- The next thread of the new generation. If it does not start, the reload ends and leaves the
threads that have started. -/
def spawn (reloads : Reloads Value) (started : Bool) (job : BackgroundJobConfig)
    (rest : List BackgroundJobConfig) : Reloads Value :=
  if started then
    { reloads with
        generations := reloads.generations.modify (reloads.generations.length - 1) fun scheduler =>
          { scheduler with threads := scheduler.threads ++ [BackgroundScheduler.spawned job] }
        stage := .spawning rest }
  else { reloads with stage := .idle }

/-- `drop` of a generation: the stop flag, the tokens, and the end of all threads. -/
def drop (reloads : Reloads Value) (generation : Nat) : Option (Reloads Value) :=
  match reloads.generations[generation]? with
  | none => none
  | some scheduler =>
      if scheduler.stop = false then
        some { reloads with generations := reloads.generations.set generation scheduler.stopAll }
      else
        match scheduler.cancelNext with
        | some cancelled =>
            some { reloads with generations := reloads.generations.set generation cancelled }
        | none =>
            if scheduler.threads.all (·.phase = .ended) then some { reloads with stage := .idle }
            else none

end Reloads

/-- The gateway with its schedules as a system. -/
def reloadSystem (base : Option String) (dispatcher : EffectDispatcher) :
    System (Reloads Value) (ReloadEvent Value) where
  next reloads event :=
    match event, reloads.stage with
    | .run generation index moment, _ =>
        match reloads.generations[generation]? with
        | none => none
        | some scheduler =>
            (scheduler.run reloads.world index moment).map fun schedule =>
              { reloads with
                  generations := reloads.generations.set generation schedule.1
                  world := schedule.2 }
    | .replace jobs applicationId, .idle => some (reloads.replace base dispatcher jobs applicationId)
    | .spawn started, .spawning (job :: rest) => some (reloads.spawn started job rest)
    | .store, .spawning [] =>
        some { reloads with
                installed := some (reloads.generations.length - 1)
                stage := Reloads.dropInstalled reloads.installed }
    | .take, .idle =>
        some { reloads with
                installed := none, stage := Reloads.dropInstalled reloads.installed }
    | .drop, .dropping generation => reloads.drop generation
    | _, _ => none

/-- All threads of the schedule have ended. -/
def BackgroundScheduler.Ended (scheduler : BackgroundScheduler) : Prop :=
  ∀ thread ∈ scheduler.threads, thread.phase = .ended

/-- Once a generation has read the journal, the threads of all earlier ones have ended. -/
def OneAlive (reloads : Reloads Value) : Prop :=
  ∀ older newer scheduler, older < newer → newer < reloads.generations.length →
    reloads.generations[older]? = some scheduler → scheduler.Ended

/-- Only the newest generation executes jobs and writes the journal. -/
def RunsNewest (reloads : Reloads Value) (event : ReloadEvent Value) : Prop :=
  ∀ generation index moment, event = .run generation index moment →
    generation + 1 = reloads.generations.length

/-- No job thread is alive when `replace_scheduler` is entered and opens the journal. -/
def EntersAlone (base : Option String) (reloads : Reloads Value) (event : ReloadEvent Value) :
    Prop :=
  ∀ jobs applicationId journal, event = .replace jobs applicationId →
    JobJournal.openFor base reloads.world.disk applicationId = .ok journal →
      ∀ scheduler ∈ reloads.generations, scheduler.Ended

instance (base : Option String) (reloads : Reloads Value) (event : ReloadEvent Value) :
    Decidable (EntersAlone base reloads event) :=
  match event with
  | .replace jobs applicationId =>
      match hopen : JobJournal.openFor base reloads.world.disk applicationId with
      | .error _ => .isTrue fun _ _ _ heq hjournal => by
          cases heq
          cases hopen.symm.trans hjournal
      | .ok journal =>
          decidable_of_iff (∀ scheduler ∈ reloads.generations,
              ∀ thread ∈ scheduler.threads, thread.phase = .ended)
            ⟨fun h _ _ _ _ _ => h, fun h => h jobs applicationId journal rfl hopen⟩
  | .run _ _ _ => .isTrue nofun
  | .spawn _ => .isTrue nofun
  | .store => .isTrue nofun
  | .take => .isTrue nofun
  | .drop => .isTrue nofun

/-! ## One step -/

/-- A thread that has ended takes no step. -/
theorem BackgroundScheduler.Ended.run {scheduler : BackgroundScheduler} (h : scheduler.Ended)
    (world : JobWorld Value) (index : Nat) (moment : Moment Value) :
    scheduler.run world index moment = none := by
  cases hrun : scheduler.run world index moment with
  | none => rfl
  | some schedule =>
      obtain ⟨thread, scene, hget, hstep, -⟩ := run_some (scheduler, world) hrun
      have hended : thread.phase = .ended := h thread (List.mem_of_getElem? hget)
      simp only [JobScene.step, Schedule.scene, hended] at hstep
      cases hstep

section Step

variable {reloads reloads' : Reloads Value} {base : Option String} {dispatcher : EffectDispatcher}
  {event : ReloadEvent Value}

/-- `OneAlive` is about every generation but the newest. -/
theorem one_alive_iff : OneAlive reloads ↔ ∀ generation scheduler,
    generation + 1 < reloads.generations.length →
      reloads.generations[generation]? = some scheduler → scheduler.Ended := by
  constructor
  · intro h generation scheduler hlt hget
    exact h generation (generation + 1) scheduler (Nat.lt_succ_self _) hlt hget
  · intro h older newer scheduler holder hnewer hget
    exact h older scheduler (by omega) hget

/-- So the step of a thread is one of the newest generation. -/
theorem OneAlive.runs_newest (h : OneAlive reloads)
    (hnext : (reloadSystem base dispatcher).next reloads event = some reloads') :
    RunsNewest reloads event := by
  rintro generation index moment rfl
  simp only [reloadSystem] at hnext
  split at hnext
  · cases hnext
  · rename_i scheduler hget
    obtain ⟨schedule, hrun, -⟩ := Option.map_eq_some_iff.mp hnext
    have hlt := (List.getElem?_eq_some_iff.mp hget).1
    by_contra hne
    have hended := one_alive_iff.mp h generation scheduler (by omega) hget
    rw [hended.run] at hrun
    cases hrun

/-- A change of one generation that keeps its threads, or one of the newest, keeps `OneAlive`. -/
theorem OneAlive.set (h : OneAlive reloads) {generation : Nat} {scheduler : BackgroundScheduler}
    (hgenerations : reloads'.generations = reloads.generations.set generation scheduler)
    (hscheduler : generation + 1 < reloads.generations.length → scheduler.Ended) :
    OneAlive reloads' := by
  rw [one_alive_iff] at h ⊢
  intro other one hlt hget
  rw [hgenerations] at hlt hget
  rw [List.length_set] at hlt
  rw [List.getElem?_set] at hget
  split at hget
  · rename_i heq
    subst heq
    split at hget
    · cases hget
      exact hscheduler hlt
    · cases hget
  · exact h other one hlt hget

/-- A drop keeps the threads. -/
theorem OneAlive.drop (h : OneAlive reloads) {generation : Nat}
    (hdrop : reloads.drop generation = some reloads') : OneAlive reloads' := by
  unfold Reloads.drop at hdrop
  split at hdrop
  · cases hdrop
  · rename_i scheduler hget
    have hended : generation + 1 < reloads.generations.length → scheduler.Ended :=
      fun hlt => one_alive_iff.mp h generation scheduler hlt hget
    split at hdrop
    · cases hdrop
      exact h.set rfl hended
    · split at hdrop
      · rename_i cancelled hcancel
        cases hdrop
        unfold BackgroundScheduler.cancelNext at hcancel
        split at hcancel
        · cases hcancel
          exact h.set rfl hended
        · cases hcancel
      · split at hdrop
        · cases hdrop
          exact h
        · cases hdrop

/-- So does the start of a thread of the newest generation. -/
theorem OneAlive.spawn (h : OneAlive reloads) (started : Bool) (job : BackgroundJobConfig)
    (rest : List BackgroundJobConfig) : OneAlive (reloads.spawn started job rest) := by
  unfold Reloads.spawn
  split
  · rw [one_alive_iff] at h ⊢
    intro generation scheduler hlt hget
    simp only [List.length_modify] at hlt
    have hne : reloads.generations.length - 1 ≠ generation := by omega
    refine h generation scheduler hlt ?_
    simpa [List.getElem?_modify, hne] using hget
  · exact h

/-- A new generation that opens the journal is alone exactly if no thread is alive. -/
theorem replace_step (h : OneAlive reloads) {jobs : List BackgroundJobConfig}
    {applicationId : String} :
    EntersAlone base reloads (.replace jobs applicationId) ↔
      OneAlive (reloads.replace base dispatcher jobs applicationId) := by
  cases hopen : JobJournal.openFor base reloads.world.disk applicationId with
  | error error =>
      have hreplace : reloads.replace base dispatcher jobs applicationId = reloads := by
        unfold Reloads.replace BackgroundScheduler.opened
        rw [hopen]
        rfl
      rw [hreplace]
      refine iff_of_true ?_ h
      intro jobs' applicationId' journal heq hjournal
      cases heq
      cases hopen.symm.trans hjournal
  | ok journal =>
      have hreplace : (reloads.replace base dispatcher jobs applicationId).generations =
          reloads.generations ++ [⟨dispatcher, journal, false, 0, []⟩] := by
        unfold Reloads.replace BackgroundScheduler.opened
        rw [hopen]
        rfl
      rw [one_alive_iff, hreplace, List.length_append, List.length_singleton]
      constructor
      · intro hended generation scheduler hlt hget
        rw [List.getElem?_append_left (by omega)] at hget
        exact hended jobs applicationId journal rfl hopen scheduler (List.mem_of_getElem? hget)
      · intro hone jobs' applicationId' journal' _ _ scheduler hmem
        obtain ⟨generation, hget⟩ := List.mem_iff_getElem?.mp hmem
        have hlt := (List.getElem?_eq_some_iff.mp hget).1
        exact hone generation scheduler (by omega)
          ((List.getElem?_append_left hlt).trans hget)

/-- Only opening the journal of a new generation can break `OneAlive`, and it does so exactly if a
thread is alive. -/
theorem reload_step (h : OneAlive reloads)
    (hnext : (reloadSystem base dispatcher).next reloads event = some reloads') :
    EntersAlone base reloads event ↔ OneAlive reloads' := by
  have hadmitted : (∀ jobs applicationId, event ≠ .replace jobs applicationId) →
      OneAlive reloads' → (EntersAlone base reloads event ↔ OneAlive reloads') :=
    fun hne => iff_of_true fun jobs applicationId _ heq => absurd heq (hne jobs applicationId)
  cases event with
  | run generation index moment =>
      refine hadmitted nofun ?_
      have hnewest := h.runs_newest hnext generation index moment rfl
      simp only [reloadSystem] at hnext
      split at hnext
      · cases hnext
      · obtain ⟨schedule, -, rfl⟩ := Option.map_eq_some_iff.mp hnext
        exact h.set rfl fun hlt => absurd hlt (by omega)
  | replace jobs applicationId =>
      cases hstage : reloads.stage <;> simp only [reloadSystem, hstage] at hnext <;> cases hnext
      exact replace_step h
  | spawn started =>
      refine hadmitted nofun ?_
      cases hstage : reloads.stage with
      | spawning jobs =>
          cases jobs <;> simp only [reloadSystem, hstage] at hnext <;> cases hnext
          exact h.spawn started _ _
      | _ =>
          simp only [reloadSystem, hstage] at hnext
          cases hnext
  | store =>
      refine hadmitted nofun ?_
      cases hstage : reloads.stage with
      | spawning jobs =>
          cases jobs <;> simp only [reloadSystem, hstage] at hnext <;> cases hnext
          exact h
      | _ =>
          simp only [reloadSystem, hstage] at hnext
          cases hnext
  | take =>
      refine hadmitted nofun ?_
      cases hstage : reloads.stage <;> simp only [reloadSystem, hstage] at hnext <;> cases hnext
      exact h
  | drop =>
      refine hadmitted nofun ?_
      cases hstage : reloads.stage <;> simp only [reloadSystem, hstage] at hnext <;> try cases hnext
      exact h.drop hnext

end Step

/-- In every run of reloads and job threads, no two generations are alive and only the newest
executes jobs and writes the journal exactly if no job thread is alive whenever
`replace_scheduler` is entered and can open the journal. -/
theorem one_generation_alive_iff (base : Option String) (dispatcher : EffectDispatcher)
    (world : JobWorld Value) (events : List (ReloadEvent Value)) (final : Reloads Value)
    (hplay : (reloadSystem base dispatcher).play ⟨[], none, .idle, world⟩ events = some final) :
    (reloadSystem base dispatcher).Always OneAlive ⟨[], none, .idle, world⟩ events ∧
        (reloadSystem base dispatcher).Throughout RunsNewest ⟨[], none, .idle, world⟩ events ↔
      (reloadSystem base dispatcher).Throughout (EntersAlone base) ⟨[], none, .idle, world⟩
        events := by
  have hnone : OneAlive (⟨[], none, .idle, world⟩ : Reloads Value) := by
    intro older newer scheduler _ hlt
    cases hlt
  have hiff := System.always_iff_throughout (C := EntersAlone base) (I := fun _ => True)
    ⟨trivial, hnone⟩ hplay fun reloads event reloads' _ hone hnext =>
      ⟨trivial, reload_step hone hnext⟩
  rw [← hiff]
  constructor
  · intro h
    exact h.1
  · intro halways
    exact ⟨halways, halways.throughout hplay fun reloads event reloads' hone hnext _ =>
      hone.runs_newest hnext⟩

/-! ## Notes that are reloaded while they are synchronized -/

/-- The gateway starts a schedule. -/
def notesReplace : List (ReloadEvent String) :=
  [.replace [notesSync 2] "com.example.notes", .spawn true, .store]

/-- The schedule is taken out of the slot and dropped while its thread waits. -/
def notesTake : List (ReloadEvent String) :=
  [.run 0 0 notesMoment, .take, .drop, .drop, .run 0 0 notesMoment, .drop]

/-- The thread of a generation records an attempt. -/
def notesAttempt (generation : Nat) : List (ReloadEvent String) :=
  [.run generation 0 notesMoment, .run generation 0 notesMoment, .run generation 0 notesMoment]

/-- Schedules that follow one another without a reload in between are never alive together. -/
theorem notes_schedules_alone :
    (reloadSystem (some "/home/notes/.local/share") .ui).Always OneAlive
        ⟨[], none, .idle, notesJobWorld⟩ (notesReplace ++ notesTake ++ notesReplace) ∧
      (reloadSystem (some "/home/notes/.local/share") .ui).Throughout RunsNewest
        ⟨[], none, .idle, notesJobWorld⟩ (notesReplace ++ notesTake ++ notesReplace) :=
  (one_generation_alive_iff (some "/home/notes/.local/share") .ui notesJobWorld
    (notesReplace ++ notesTake ++ notesReplace) _ rfl).mpr (by decide)

/-- A reload starts the next schedule while the thread of the last one is alive: both record an
attempt of the same job. -/
theorem notes_reload_not_alone : ∃ final,
    (reloadSystem (some "/home/notes/.local/share") .ui).play ⟨[], none, .idle, notesJobWorld⟩
        (notesReplace ++ notesReplace ++ notesAttempt 1 ++ notesAttempt 0) = some final ∧
      ¬((reloadSystem (some "/home/notes/.local/share") .ui).Always OneAlive
          ⟨[], none, .idle, notesJobWorld⟩
          (notesReplace ++ notesReplace ++ notesAttempt 1 ++ notesAttempt 0) ∧
        (reloadSystem (some "/home/notes/.local/share") .ui).Throughout RunsNewest
          ⟨[], none, .idle, notesJobWorld⟩
          (notesReplace ++ notesReplace ++ notesAttempt 1 ++ notesAttempt 0)) := by
  refine ⟨_, rfl, fun h => ?_⟩
  have hended := h.1.last rfl 0 1 _ (by decide) (by decide) rfl _ List.mem_cons_self
  revert hended
  decide

end PamDesktop.Scheduler
