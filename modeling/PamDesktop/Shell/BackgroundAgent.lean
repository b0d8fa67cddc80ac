import PamDesktop.Foundations.FileTree
import PamDesktop.Foundations.Transition

/-!
# The readiness handshake of the background agent

`spawn` starts the agent process and polls for the marker file that `publish_readiness` creates
and then fills. The two processes and the clock are interleaved step by step: `next` says what
each event does. `handshake_sound` says which interleavings `spawn` judges correctly, and that
every other one can be continued to a wrong verdict.
-/

namespace PamDesktop.Shell.BackgroundAgent

open Foundations

/-- `READY_MARKER`. -/
def readyMarker : List UInt8 := osString "PAM-DESKTOP-AGENT-READY-1\n"

/-- `READY_TIMEOUT`, in milliseconds. -/
def readyTimeout : Nat := 15000

/-- The pause between two polls, in milliseconds. -/
def pollPause : Nat := 25

/-- What `InstanceGuard::acquire` made of the agent: the primary serves until it is stopped, a
forwarded one publishes its marker and returns. -/
inductive Role where
  | primary
  | forwarded
  deriving DecidableEq

/-- Where `run` stands in the agent process. `absent` is a process that was never started. -/
inductive Agent where
  | absent
  | preparing
  | publishing (role : Role)
  | writing (role : Role) (written : Nat)
  | syncing (role : Role)
  | serving
  | exited (status : String)
  | killed
  deriving DecidableEq

/-- Why `spawn` fails. -/
inductive Failure where
  | unstarted (message : String)
  | invalidMarker
  | unreadable (error : String)
  | uninspectable (error : String)
  | exited (status : String)
  | timedOut
  deriving DecidableEq

/-- The error text of a failure. -/
def Failure.message (applicationId : String) : Failure → String
  | .unstarted message => message
  | .invalidMarker => "background agent returned an invalid readiness marker"
  | .unreadable error => "cannot read background agent readiness: " ++ error
  | .uninspectable error => "cannot inspect background agent startup: " ++ error
  | .exited status => "background agent exited before readiness with " ++ status
  | .timedOut =>
      "background agent for " ++ applicationId ++ " did not become ready within 15 seconds"

/-- Where `spawn` stands: `arming` computes the deadline, the next four are one turn of the loop,
the rest carries out what the turn decided. -/
inductive Parent where
  | arming
  | reading
  | inspecting
  | timing
  | sleeping (wake : Nat)
  | killing (why : Failure)
  | waiting (why : Failure)
  | removing (result : Except Failure Unit)
  | returned (result : Except Failure Unit)
  deriving DecidableEq

/-- The two processes, the marker file and the clock. `publishedAt` is the moment at which the
last byte of the marker was written; neither process reads it. -/
structure Handshake where
  marker : Option (List UInt8)
  agent : Agent
  parent : Parent
  now : Nat
  deadline : Nat
  publishedAt : Option Nat
  deriving DecidableEq

/-- How `spawn` comes to its loop. -/
inductive Entry where
  | agentChild
  | unstarted (message : String)
  | started
  deriving DecidableEq

/-- `spawn` up to the loop: nothing is started by the agent itself, nor when the executable, the
token or the process cannot be had. -/
def spawn (now : Nat) : Entry → Handshake
  | .agentChild => ⟨none, .absent, .returned (.ok ()), now, 0, none⟩
  | .unstarted message => ⟨none, .absent, .returned (.error (.unstarted message)), now, 0, none⟩
  | .started => ⟨none, .preparing, .arming, now, 0, none⟩

/-- The steps of the agent. `fail` is any way in which `run` ends early: an error it returns or
the end of its process. -/
inductive AgentStep where
  | ready (role : Role)
  | create
  | write (count : Nat)
  | sync
  | stop
  | fail (status : String)
  deriving DecidableEq

/-- The process has not ended. -/
def Agent.alive : Agent → Bool
  | .absent | .exited _ | .killed => false
  | _ => true

/-- `child.kill()`. -/
def Agent.kill : Agent → Agent
  | .absent => .absent
  | .exited status => .exited status
  | _ => .killed

namespace Handshake

/-- `run` and `publish_readiness`: `create_new`, the writes of `write_all` and `sync_all`. -/
def act (s : Handshake) : AgentStep → Option Handshake
  | .ready role =>
      match s.agent with
      | .preparing => some { s with agent := .publishing role }
      | _ => none
  | .create =>
      match s.agent with
      | .publishing role =>
          if s.marker = none then some { s with marker := some [], agent := .writing role 0 }
          else none
      | _ => none
  | .write count =>
      match s.agent with
      | .writing role written =>
          if written + count < readyMarker.length then
            some { s with
              marker := s.marker.map fun _ => readyMarker.take (written + count)
              agent := .writing role (written + count) }
          else if written + count = readyMarker.length then
            some { s with
              marker := s.marker.map fun _ => readyMarker
              agent := .syncing role
              publishedAt := some s.now }
          else none
      | _ => none
  | .sync =>
      match s.agent with
      | .syncing .primary => some { s with agent := .serving }
      | .syncing .forwarded => some { s with agent := .exited "exit status: 0" }
      | _ => none
  | .stop =>
      match s.agent with
      | .serving => some { s with agent := .exited "exit status: 0" }
      | _ => none
  | .fail status => if s.agent.alive then some { s with agent := .exited status } else none

/-- The next step of `spawn`, where the system calls it makes succeed. -/
def poll (s : Handshake) : Option Handshake :=
  match s.parent with
  | .arming => some { s with deadline := s.now + readyTimeout, parent := .reading }
  | .reading =>
      match s.marker with
      | some bytes =>
          if bytes = readyMarker then some { s with parent := .removing (.ok ()) }
          else some { s with parent := .killing .invalidMarker }
      | none => some { s with parent := .inspecting }
  | .inspecting =>
      match s.agent with
      | .exited status => some { s with parent := .removing (.error (.exited status)) }
      | .killed => some { s with parent := .removing (.error (.exited "signal: 9 (SIGKILL)")) }
      | _ => some { s with parent := .timing }
  | .timing =>
      if s.deadline ≤ s.now then some { s with parent := .killing .timedOut }
      else some { s with parent := .sleeping (s.now + pollPause) }
  | .sleeping wake => if wake ≤ s.now then some { s with parent := .reading } else none
  | .killing why =>
      let parent := match why with
        | .timedOut => .waiting why
        | .invalidMarker => .removing (.error why)
        | _ => .returned (.error why)
      some { s with agent := s.agent.kill, parent }
  | .waiting why =>
      if s.agent.alive then none else some { s with parent := .removing (.error why) }
  | .removing result => some { s with marker := none, parent := .returned result }
  | .returned _ => none

/-- The next step of `spawn`, where `fs::read` or `try_wait` fails. -/
def fault (s : Handshake) (error : String) : Option Handshake :=
  match s.parent with
  | .reading => some { s with parent := .killing (.unreadable error) }
  | .inspecting => some { s with parent := .returned (.error (.uninspectable error)) }
  | _ => none

end Handshake

/-- What can happen next. -/
inductive Event where
  | agent (step : AgentStep)
  | poll
  | fault (error : String)
  | tick (elapsed : Nat)
  deriving DecidableEq

/-- Both processes and the clock, interleaved. -/
def handshake : System Handshake Event where
  next s
    | .agent step => s.act step
    | .poll => s.poll
    | .fault error => s.fault error
    | .tick elapsed => some { s with now := s.now + elapsed }

/-- What `spawn` has decided; `none` while its loop goes on. -/
def Parent.verdict : Parent → Option (Except Failure Unit)
  | .killing why | .waiting why => some (.error why)
  | .removing result | .returned result => some result
  | _ => none

/-- `spawn` has decided to fail. -/
def Parent.givesUp (parent : Parent) : Bool :=
  match parent.verdict with
  | some (.error _) => true
  | _ => false

/-- The step writes the last byte of the marker. -/
def Handshake.completes (s : Handshake) : AgentStep → Bool
  | .write count =>
      match s.agent with
      | .writing _ written => written + count == readyMarker.length
      | _ => false
  | _ => false

/-- The contract: an agent is not killed before the deadline, one that published in time is
neither killed nor accused of an invalid marker, and `spawn` returns `Ok` exactly when the marker
was published. -/
structure Sound (s : Handshake) : Prop where
  patient : s.agent = .killed → s.deadline ≤ s.now
  spared : ∀ moment, s.publishedAt = some moment → moment < s.deadline →
    s.agent ≠ .killed ∧ s.parent ≠ .returned (.error .invalidMarker)
  exact : ∀ result, s.parent = .returned result →
    (result = .ok () ↔ s.publishedAt.isSome = true)

/-- The step does not fall into one of the gaps of the handshake: the agent does not finish the
marker once `spawn` has given up, a turn of the loop that has missed the finished marker does not
end the loop, and `spawn` does not kill a running agent before the deadline. -/
def Undisturbed (s : Handshake) : Event → Prop
  | .agent step => s.completes step = true → s.parent.givesUp = false
  | .poll =>
      match s.parent with
      | .inspecting => s.agent.alive = false → s.publishedAt = none
      | .timing => s.deadline ≤ s.now → s.publishedAt = none
      | .killing _ => s.agent.alive = true → s.deadline ≤ s.now
      | _ => True
  | .fault _ => s.publishedAt = none
  | .tick _ => True

instance (s : Handshake) : ∀ event, Decidable (Undisturbed s event)
  | .agent step => inferInstanceAs (Decidable (s.completes step = true → s.parent.givesUp = false))
  | .poll =>
      match hparent : s.parent with
      | .inspecting =>
          decidable_of_iff (s.agent.alive = false → s.publishedAt = none) (by
            rw [Undisturbed, hparent])
      | .timing =>
          decidable_of_iff (s.deadline ≤ s.now → s.publishedAt = none) (by
            rw [Undisturbed, hparent])
      | .killing why =>
          decidable_of_iff (s.agent.alive = true → s.deadline ≤ s.now) (by
            rw [Undisturbed, hparent])
      | .arming | .reading | .sleeping _ | .waiting _ | .removing _ | .returned _ =>
          .isTrue (by rw [Undisturbed, hparent]; trivial)
  | .fault _ => inferInstanceAs (Decidable (s.publishedAt = none))
  | .tick _ => .isTrue trivial

/-- What the marker holds while the agent runs. -/
def Agent.Wrote (marker : Option (List UInt8)) (publishedAt : Option Nat) : Agent → Prop
  | .absent | .preparing | .publishing _ => marker = none ∧ publishedAt = none
  | .writing _ written =>
      written < readyMarker.length ∧ marker = some (readyMarker.take written) ∧ publishedAt = none
  | .syncing _ | .serving => publishedAt.isSome = true
  | .exited _ | .killed => True

/-- `spawn` is about to remove the marker. -/
def Parent.clearing : Parent → Bool
  | .waiting _ | .removing _ => true
  | _ => false

/-- What holds in every interleaving: the marker is what the agent has written until `spawn`
removes it, and `spawn` removes nothing that is still being written. -/
structure Formed (s : Handshake) : Prop where
  wrote : s.agent.Wrote s.marker s.publishedAt
  complete : s.marker = some readyMarker → s.publishedAt.isSome = true
  present : s.publishedAt.isSome = true → s.parent.verdict = none → s.marker = some readyMarker
  settled : s.parent.clearing = true → s.agent.alive = false ∨ s.publishedAt.isSome = true

/-- What `spawn` decides has a ground: it accepts only what was published and kills only what it
has given up. -/
structure Grounded (s : Handshake) : Prop where
  accepted : s.parent.verdict = some (.ok ()) → s.publishedAt.isSome = true
  convicted : s.agent = .killed → s.parent.givesUp = true

/-- `spawn` has not given up an agent that published its marker. -/
def Unmissed (s : Handshake) : Prop := s.parent.givesUp = true → s.publishedAt = none

/-- What holds as long as no step fell into a gap. -/
structure Judged (s : Handshake) : Prop where
  unmissed : Unmissed s
  patient : s.agent = .killed → s.deadline ≤ s.now

section Lemmas

variable {s s' : Handshake}

theorem ready_marker_nonempty : 0 < readyMarker.length := by decide +kernel

/-- A part of the marker is not the marker. -/
theorem take_ready_marker_ne {written : Nat} (h : written < readyMarker.length) :
    readyMarker.take written ≠ readyMarker := by
  intro heq
  have hlength := congrArg List.length heq
  rw [List.length_take] at hlength
  omega

/-- A process that was killed has written what it had written. -/
theorem Agent.Wrote.kill {agent : Agent} {marker : Option (List UInt8)}
    {publishedAt : Option Nat} (h : agent.Wrote marker publishedAt) :
    agent.kill.Wrote marker publishedAt := by
  cases agent with
  | absent => exact h
  | _ => trivial

/-- Removing the marker of an agent that writes no more. -/
theorem Agent.Wrote.removed {agent : Agent} {marker : Option (List UInt8)}
    {publishedAt : Option Nat} (h : agent.Wrote marker publishedAt)
    (hsettled : agent.alive = false ∨ publishedAt.isSome = true) :
    agent.Wrote none publishedAt := by
  cases agent with
  | absent => exact ⟨rfl, h.2⟩
  | preparing => exact ⟨rfl, h.2⟩
  | publishing role => exact ⟨rfl, h.2⟩
  | writing role written =>
      obtain halive | hsome := hsettled
      · cases halive
      · rw [h.2.2] at hsome
        cases hsome
  | syncing role => exact h
  | serving => exact h
  | exited status => trivial
  | killed => trivial

/-- A killed process has ended, unless it was never started. -/
theorem Agent.alive_kill (agent : Agent) : agent.kill.alive = false := by
  cases agent <;> rfl

/-- What a poll does. -/
inductive Polls (s : Handshake) : Handshake → Prop
  | arm : s.parent = .arming →
      Polls s { s with deadline := s.now + readyTimeout, parent := .reading }
  | accept : s.parent = .reading → s.marker = some readyMarker →
      Polls s { s with parent := .removing (.ok ()) }
  | reject {bytes : List UInt8} : s.parent = .reading → s.marker = some bytes →
      bytes ≠ readyMarker → Polls s { s with parent := .killing .invalidMarker }
  | inspect : s.parent = .reading → Polls s { s with parent := .inspecting }
  | exited {status : String} : s.parent = .inspecting → s.agent = .exited status →
      Polls s { s with parent := .removing (.error (.exited status)) }
  | killed : s.parent = .inspecting → s.agent = .killed →
      Polls s { s with parent := .removing (.error (.exited "signal: 9 (SIGKILL)")) }
  | time : s.parent = .inspecting → (∀ status, s.agent ≠ .exited status) → s.agent ≠ .killed →
      Polls s { s with parent := .timing }
  | late : s.parent = .timing → s.deadline ≤ s.now →
      Polls s { s with parent := .killing .timedOut }
  | sleep : s.parent = .timing → ¬ s.deadline ≤ s.now →
      Polls s { s with parent := .sleeping (s.now + pollPause) }
  | wake {wake : Nat} : s.parent = .sleeping wake → Polls s { s with parent := .reading }
  | kill {why : Failure} {parent : Parent} : s.parent = .killing why →
      parent.verdict = some (.error why) → Polls s { s with agent := s.agent.kill, parent }
  | reap {why : Failure} : s.parent = .waiting why → s.agent.alive = false →
      Polls s { s with parent := .removing (.error why) }
  | remove {result : Except Failure Unit} : s.parent = .removing result →
      Polls s { s with marker := none, parent := .returned result }

theorem polls_of_poll (hpoll : s.poll = some s') : Polls s s' := by
  cases hparent : s.parent with
  | arming =>
      simp only [Handshake.poll, hparent] at hpoll
      cases hpoll
      exact .arm hparent
  | reading =>
      simp only [Handshake.poll, hparent] at hpoll
      split at hpoll
      · rename_i bytes hmarker
        split at hpoll
        · rename_i hbytes
          cases hpoll
          exact .accept hparent (by rw [hmarker, hbytes])
        · rename_i hbytes
          cases hpoll
          exact .reject hparent hmarker hbytes
      · cases hpoll
        exact .inspect hparent
  | inspecting =>
      simp only [Handshake.poll, hparent] at hpoll
      split at hpoll
      · rename_i status hagent
        cases hpoll
        exact .exited hparent hagent
      · rename_i hagent
        cases hpoll
        exact .killed hparent hagent
      · rename_i hexited hkilled
        cases hpoll
        exact .time hparent hexited hkilled
  | timing =>
      simp only [Handshake.poll, hparent] at hpoll
      split at hpoll
      · rename_i hlate
        cases hpoll
        exact .late hparent hlate
      · rename_i hearly
        cases hpoll
        exact .sleep hparent hearly
  | sleeping wake =>
      simp only [Handshake.poll, hparent] at hpoll
      split at hpoll
      · cases hpoll
        exact .wake hparent
      · cases hpoll
  | killing why =>
      simp only [Handshake.poll, hparent] at hpoll
      cases hpoll
      cases why <;> exact .kill hparent rfl
  | waiting why =>
      simp only [Handshake.poll, hparent] at hpoll
      split at hpoll
      · cases hpoll
      · rename_i halive
        cases hpoll
        exact .reap hparent (Bool.eq_false_iff.mpr halive)
  | removing result =>
      simp only [Handshake.poll, hparent] at hpoll
      cases hpoll
      exact .remove hparent
  | returned result =>
      simp only [Handshake.poll, hparent] at hpoll
      cases hpoll

/-- While the loop of `spawn` goes on nothing is decided. -/
theorem undecided {parent : Parent} (hparent : s.parent = parent) (h : parent.verdict = none) :
    s.parent.verdict = none := by
  rw [hparent, h]

theorem gives_nothing_up {parent : Parent} (h : parent.verdict = none) :
    parent.givesUp = false := by
  rw [Parent.givesUp, h]

theorem gives_up {parent : Parent} {why : Failure} (h : parent.verdict = some (.error why)) :
    parent.givesUp = true := by
  rw [Parent.givesUp, h]

/-- A step of `spawn` that touches neither the agent nor the marker, outside of what it still has
to remove. -/
theorem Formed.turn (h : Formed s) (parent : Parent) (deadline : Nat)
    (hverdict : parent.verdict = none → s.parent.verdict = none)
    (hclearing : parent.clearing = true → s.agent.alive = false ∨ s.publishedAt.isSome = true) :
    Formed { s with parent, deadline } :=
  ⟨h.wrote, h.complete, fun hsome hnone => h.present hsome (hverdict hnone), hclearing⟩

theorem Formed.poll (h : Formed s) (hpoll : Polls s s') : Formed s' := by
  cases hpoll with
  | arm hparent => exact h.turn .reading _ (fun _ => undecided hparent rfl) nofun
  | accept hparent hmarker =>
      exact h.turn (.removing (.ok ())) s.deadline (fun _ => undecided hparent rfl)
        fun _ => .inr (h.complete hmarker)
  | reject hparent _ _ =>
      exact h.turn (.killing .invalidMarker) s.deadline (fun _ => undecided hparent rfl) nofun
  | inspect hparent => exact h.turn .inspecting s.deadline (fun _ => undecided hparent rfl) nofun
  | exited hparent hagent =>
      exact h.turn _ s.deadline (fun _ => undecided hparent rfl)
        fun _ => .inl (by rw [hagent]; rfl)
  | killed hparent hagent =>
      exact h.turn _ s.deadline (fun _ => undecided hparent rfl)
        fun _ => .inl (by rw [hagent]; rfl)
  | time hparent _ _ => exact h.turn .timing s.deadline (fun _ => undecided hparent rfl) nofun
  | late hparent _ =>
      exact h.turn (.killing .timedOut) s.deadline (fun _ => undecided hparent rfl) nofun
  | sleep hparent _ => exact h.turn (.sleeping _) s.deadline (fun _ => undecided hparent rfl) nofun
  | wake hparent => exact h.turn .reading s.deadline (fun _ => undecided hparent rfl) nofun
  | kill _ hverdict =>
      refine ⟨h.wrote.kill, h.complete, fun _ hnone => ?_, fun _ => .inl s.agent.alive_kill⟩
      cases hverdict.symm.trans hnone
  | reap _ halive => exact h.turn _ s.deadline nofun fun _ => .inl halive
  | remove hparent =>
      exact ⟨h.wrote.removed (h.settled (by rw [hparent]; rfl)), nofun, nofun, nofun⟩

theorem Formed.act {step : AgentStep} (h : Formed s) (hact : s.act step = some s') :
    Formed s' := by
  have hwrote := h.wrote
  cases step with
  | ready role =>
      simp only [Handshake.act] at hact
      split at hact
      · rename_i hagent
        cases hact
        rw [hagent] at hwrote
        refine ⟨hwrote, h.complete, h.present, fun hclearing => ?_⟩
        have := h.settled hclearing
        rwa [hagent] at this
      · cases hact
  | create =>
      simp only [Handshake.act] at hact
      split at hact
      · rename_i role hagent
        split at hact
        · cases hact
          rw [hagent] at hwrote
          obtain ⟨hmarker, hpublished⟩ := hwrote
          have hpos := ready_marker_nonempty
          refine ⟨⟨hpos, rfl, hpublished⟩, fun hcomplete => ?_, fun hsome => ?_, fun hclearing => ?_⟩
          · exact absurd (Option.some.inj hcomplete) (take_ready_marker_ne hpos)
          · rw [hpublished] at hsome
            cases hsome
          · have := h.settled hclearing
            rwa [hagent] at this
        · cases hact
      · cases hact
  | write count =>
      simp only [Handshake.act] at hact
      split at hact
      · rename_i role written hagent
        rw [hagent] at hwrote
        obtain ⟨hlt, hmarker, hpublished⟩ := hwrote
        rw [hmarker] at hact
        split at hact
        · rename_i hshort
          cases hact
          refine ⟨⟨hshort, rfl, hpublished⟩, fun hcomplete => ?_, fun hsome => ?_,
            fun hclearing => ?_⟩
          · exact absurd (Option.some.inj hcomplete) (take_ready_marker_ne hshort)
          · rw [hpublished] at hsome
            cases hsome
          · have := h.settled hclearing
            rwa [hagent] at this
        · split at hact
          · cases hact
            exact ⟨rfl, fun _ => rfl, fun _ _ => rfl, fun _ => .inr rfl⟩
          · cases hact
      · cases hact
  | sync =>
      simp only [Handshake.act] at hact
      split at hact
      · rename_i hagent
        cases hact
        rw [hagent] at hwrote
        exact ⟨hwrote, h.complete, h.present, fun _ => .inr hwrote⟩
      · cases hact
        exact ⟨trivial, h.complete, h.present, fun _ => .inl rfl⟩
      · cases hact
  | stop =>
      simp only [Handshake.act] at hact
      split at hact
      · cases hact
        exact ⟨trivial, h.complete, h.present, fun _ => .inl rfl⟩
      · cases hact
  | fail status =>
      simp only [Handshake.act] at hact
      split at hact
      · cases hact
        exact ⟨trivial, h.complete, h.present, fun _ => .inl rfl⟩
      · cases hact

theorem Formed.fault {error : String} (h : Formed s) (hfault : s.fault error = some s') :
    Formed s' := by
  simp only [Handshake.fault] at hfault
  split at hfault
  · rename_i hparent
    cases hfault
    exact h.turn (.killing (.unreadable error)) s.deadline (fun _ => by rw [hparent]; rfl) nofun
  · rename_i hparent
    cases hfault
    exact h.turn (.returned _) s.deadline (fun _ => by rw [hparent]; rfl) nofun
  · cases hfault

/-- Every step keeps the marker in order. -/
theorem Formed.next {event : Event} (h : Formed s) (hnext : handshake.next s event = some s') :
    Formed s' := by
  cases event with
  | agent step => exact h.act hnext
  | poll => exact h.poll (polls_of_poll hnext)
  | fault error => exact h.fault hnext
  | tick elapsed =>
      cases hnext
      exact ⟨h.wrote, h.complete, h.present, h.settled⟩

/-- `spawn` starts in order. -/
theorem formed_spawn (now : Nat) (entry : Entry) : Formed (spawn now entry) := by
  cases entry with
  | agentChild => exact ⟨⟨rfl, rfl⟩, nofun, nofun, nofun⟩
  | unstarted message => exact ⟨⟨rfl, rfl⟩, nofun, nofun, nofun⟩
  | started => exact ⟨⟨rfl, rfl⟩, nofun, nofun, nofun⟩

/-- What a step of the agent can do. -/
theorem act_cases {step : AgentStep} (hact : s.act step = some s') :
    s'.parent = s.parent ∧ s'.now = s.now ∧ s'.deadline = s.deadline ∧ s'.agent ≠ .killed ∧
      s'.publishedAt = if s.completes step then some s.now else s.publishedAt := by
  cases step with
  | write count =>
      simp only [Handshake.act] at hact
      split at hact
      · rename_i role written hagent
        simp only [Handshake.completes, hagent]
        split at hact
        · rename_i hshort
          cases hact
          refine ⟨rfl, rfl, rfl, nofun, ?_⟩
          rw [if_neg (by rw [beq_iff_eq]; omega)]
        · split at hact
          · rename_i hlength
            cases hact
            refine ⟨rfl, rfl, rfl, nofun, ?_⟩
            rw [if_pos (by rw [beq_iff_eq]; exact hlength)]
          · cases hact
      · cases hact
  | create =>
      simp only [Handshake.act] at hact
      split at hact
      · split at hact <;> cases hact
        exact ⟨rfl, rfl, rfl, nofun, rfl⟩
      · cases hact
  | ready role =>
      simp only [Handshake.act] at hact
      split at hact <;> cases hact
      exact ⟨rfl, rfl, rfl, nofun, rfl⟩
  | sync =>
      simp only [Handshake.act] at hact
      split at hact <;> cases hact <;> exact ⟨rfl, rfl, rfl, nofun, rfl⟩
  | stop =>
      simp only [Handshake.act] at hact
      split at hact <;> cases hact
      exact ⟨rfl, rfl, rfl, nofun, rfl⟩
  | fail status =>
      simp only [Handshake.act] at hact
      split at hact <;> cases hact
      exact ⟨rfl, rfl, rfl, nofun, rfl⟩

/-- A killed agent was alive and running, or had been killed before. -/
theorem Agent.kill_eq_killed {agent : Agent} (h : agent.kill = .killed) :
    agent.alive = true ∨ agent = .killed := by
  cases agent with
  | absent => cases h
  | exited status => cases h
  | killed => exact .inr rfl
  | _ => exact .inl rfl

/-- `spawn` goes on with its loop. -/
theorem Grounded.turn (h : Grounded s) {parent : Parent} (deadline : Nat)
    (hverdict : s.parent.verdict = none) (hparent : parent.verdict = none) :
    Grounded { s with parent, deadline } := by
  refine ⟨fun haccepted => ?_, fun hkilled => ?_⟩
  · cases hparent.symm.trans haccepted
  · have hgives := h.convicted hkilled
    rw [gives_nothing_up hverdict] at hgives
    cases hgives

/-- `spawn` gives up the agent, which it may have killed. -/
theorem grounded_given_up {agent : Agent} {parent : Parent} {why : Failure}
    (hverdict : parent.verdict = some (.error why)) : Grounded { s with agent, parent } := by
  refine ⟨fun haccepted => ?_, fun _ => gives_up hverdict⟩
  cases hverdict.symm.trans haccepted

theorem Grounded.poll (h : Grounded s) (hformed : Formed s) (hpoll : Polls s s') :
    Grounded s' := by
  cases hpoll with
  | arm hparent => exact h.turn _ (undecided hparent rfl) rfl
  | accept hparent hmarker =>
      have hpublished := hformed.complete hmarker
      refine ⟨fun _ => hpublished, fun hkilled => ?_⟩
      have hgives := h.convicted hkilled
      rw [gives_nothing_up (undecided hparent rfl)] at hgives
      cases hgives
  | reject _ _ _ => exact grounded_given_up rfl
  | inspect hparent => exact h.turn _ (undecided hparent rfl) rfl
  | exited _ _ => exact grounded_given_up rfl
  | killed _ _ => exact grounded_given_up rfl
  | time hparent _ _ => exact h.turn _ (undecided hparent rfl) rfl
  | late _ _ => exact grounded_given_up rfl
  | sleep hparent _ => exact h.turn _ (undecided hparent rfl) rfl
  | wake hparent => exact h.turn _ (undecided hparent rfl) rfl
  | kill _ hverdict => exact grounded_given_up hverdict
  | reap _ _ => exact grounded_given_up rfl
  | remove hparent =>
      have hconvicted := h.convicted
      have haccepted := h.accepted
      rw [hparent] at hconvicted haccepted
      exact ⟨haccepted, hconvicted⟩

/-- Every step keeps the grounds of what `spawn` decides. -/
theorem Grounded.next {event : Event} (h : Grounded s) (hformed : Formed s)
    (hnext : handshake.next s event = some s') : Grounded s' := by
  cases event with
  | agent step =>
      obtain ⟨hparent, -, -, hagent, hpublished⟩ := act_cases hnext
      refine ⟨fun hverdict => ?_, fun hkilled => absurd hkilled hagent⟩
      rw [hparent] at hverdict
      rw [hpublished]
      split
      · rfl
      · exact h.accepted hverdict
  | poll => exact h.poll hformed (polls_of_poll hnext)
  | fault error =>
      simp only [handshake, Handshake.fault] at hnext
      split at hnext <;> cases hnext <;> exact ⟨nofun, fun _ => rfl⟩
  | tick elapsed =>
      cases hnext
      exact ⟨h.accepted, h.convicted⟩

/-- Where the agent neither was nor is killed, only the verdict matters. -/
theorem judged_turn (parent : Parent) (deadline : Nat)
    (hgives : s.parent.givesUp = false) (hgrounded : Grounded s) :
    Judged { s with parent, deadline } ↔ (parent.givesUp = true → s.publishedAt = none) := by
  constructor
  · intro hjudged
    exact hjudged.unmissed
  · intro hunmissed
    refine ⟨hunmissed, fun hkilled => ?_⟩
    have := hgrounded.convicted hkilled
    rw [hgives] at this
    cases this

/-- A step of `spawn` falls into a gap exactly when it misses a published marker or kills an
agent too early. -/
theorem judged_poll_iff (hformed : Formed s) (hgrounded : Grounded s) (h : Judged s)
    (hpoll : Polls s s') : Judged s' ↔ Undisturbed s .poll := by
  have hgoes : ∀ {parent : Parent}, s.parent = parent → parent.verdict = none →
      s.parent.givesUp = false := fun hparent hnone => gives_nothing_up (undecided hparent hnone)
  rw [Undisturbed]
  cases hpoll with
  | arm hparent =>
      rw [judged_turn .reading _ (hgoes hparent rfl) hgrounded, hparent]
      exact ⟨fun _ => trivial, nofun⟩
  | accept hparent _ =>
      rw [judged_turn (.removing (.ok ())) s.deadline (hgoes hparent rfl) hgrounded, hparent]
      exact ⟨fun _ => trivial, nofun⟩
  | @reject bytes hparent hmarker hbytes =>
      rw [judged_turn (.killing .invalidMarker) s.deadline (hgoes hparent rfl) hgrounded, hparent]
      refine ⟨fun _ => trivial, fun _ _ => ?_⟩
      -- a partial marker was not published
      cases hpublished : s.publishedAt with
      | none => rfl
      | some moment =>
          have hpresent := hformed.present (by rw [hpublished]; rfl) (undecided hparent rfl)
          rw [hmarker] at hpresent
          exact absurd (Option.some.inj hpresent) hbytes
  | inspect hparent =>
      rw [judged_turn .inspecting s.deadline (hgoes hparent rfl) hgrounded, hparent]
      exact ⟨fun _ => trivial, nofun⟩
  | exited hparent hagent =>
      rw [judged_turn _ s.deadline (hgoes hparent rfl) hgrounded, hparent, hagent]
      exact ⟨fun hnone _ => hnone rfl, fun hnone _ => hnone rfl⟩
  | killed hparent hagent =>
      have hgives := hgrounded.convicted hagent
      rw [hgoes hparent rfl] at hgives
      cases hgives
  | time hparent hexited hkilled =>
      have hwrote := hformed.wrote
      rw [judged_turn .timing s.deadline (hgoes hparent rfl) hgrounded, hparent]
      refine ⟨fun _ halive => ?_, nofun⟩
      cases hagent : s.agent with
      | absent =>
          rw [hagent] at hwrote
          exact hwrote.2
      | exited status => exact absurd hagent (hexited status)
      | killed => exact absurd hagent hkilled
      | _ =>
          rw [hagent] at halive
          cases halive
  | late hparent hlate =>
      rw [judged_turn (.killing .timedOut) s.deadline (hgoes hparent rfl) hgrounded, hparent]
      exact ⟨fun hnone _ => hnone rfl, fun hnone _ => hnone hlate⟩
  | sleep hparent hearly =>
      rw [judged_turn (.sleeping _) s.deadline (hgoes hparent rfl) hgrounded, hparent]
      exact ⟨fun _ hlate => absurd hlate hearly, nofun⟩
  | wake hparent =>
      rw [judged_turn .reading s.deadline (hgoes hparent rfl) hgrounded, hparent]
      exact ⟨fun _ => trivial, nofun⟩
  | @kill why _ hparent _ =>
      have hgives : s.parent.givesUp = true := by rw [hparent]; rfl
      rw [hparent]
      constructor
      · intro hjudged halive
        apply hjudged.patient
        show s.agent.kill = .killed
        cases hagent : s.agent <;> rw [hagent] at halive <;> first | rfl | cases halive
      · intro hlate
        refine ⟨fun _ => h.unmissed hgives, fun hkilled => ?_⟩
        obtain halive | hbefore := Agent.kill_eq_killed hkilled
        · exact hlate halive
        · exact h.patient hbefore
  | reap hparent _ =>
      have hgives : s.parent.givesUp = true := by rw [hparent]; rfl
      rw [hparent]
      exact ⟨fun _ => trivial, fun _ => ⟨fun _ => h.unmissed hgives, h.patient⟩⟩
  | remove hparent =>
      have hunmissed := h.unmissed
      rw [Unmissed, hparent] at hunmissed
      rw [hparent]
      exact ⟨fun _ => trivial, fun _ => ⟨hunmissed, h.patient⟩⟩

/-- A step breaks the judgement exactly when it falls into a gap. -/
theorem judged_iff {event : Event} (hformed : Formed s) (hgrounded : Grounded s) (h : Judged s)
    (hnext : handshake.next s event = some s') : Judged s' ↔ Undisturbed s event := by
  cases event with
  | agent step =>
      obtain ⟨hparent, hnow, hdeadline, hagent, hpublished⟩ := act_cases hnext
      constructor
      · intro hjudged hcompletes
        rw [hcompletes, if_pos rfl] at hpublished
        cases hgives : s.parent.givesUp with
        | false => rfl
        | true =>
            have := hjudged.unmissed (by rw [hparent]; exact hgives)
            rw [hpublished] at this
            cases this
      · intro hundisturbed
        refine ⟨fun hgives => ?_, fun hkilled => absurd hkilled hagent⟩
        rw [hparent] at hgives
        rw [hpublished]
        split
        · rename_i hcompletes
          rw [hundisturbed hcompletes] at hgives
          cases hgives
        · exact h.unmissed hgives
  | poll => exact judged_poll_iff hformed hgrounded h (polls_of_poll hnext)
  | fault error =>
      simp only [handshake, Handshake.fault] at hnext
      split at hnext
      · rename_i hparent
        cases hnext
        rw [judged_turn (.killing (.unreadable error)) s.deadline (by rw [hparent]; rfl) hgrounded]
        exact ⟨fun hnone => hnone rfl, fun hnone _ => hnone⟩
      · rename_i hparent
        cases hnext
        rw [judged_turn (.returned _) s.deadline (by rw [hparent]; rfl) hgrounded]
        exact ⟨fun hnone => hnone rfl, fun hnone _ => hnone⟩
      · cases hnext
  | tick elapsed =>
      cases hnext
      refine ⟨fun _ => trivial, fun _ => ⟨h.unmissed, fun hkilled => ?_⟩⟩
      exact Nat.le_trans (h.patient hkilled) (Nat.le_add_right _ _)

/-- Once `spawn` has given up it stays so, and a step of it publishes nothing. -/
theorem poll_given_up (hgives : s.parent.givesUp = true) (hpoll : Polls s s') :
    s'.parent.givesUp = true ∧ s'.publishedAt = s.publishedAt := by
  cases hpoll with
  | kill _ hverdict => exact ⟨gives_up hverdict, rfl⟩
  | reap _ _ => exact ⟨rfl, rfl⟩
  | remove hparent =>
      rw [hparent] at hgives
      exact ⟨hgives, rfl⟩
  | arm hparent | accept hparent | reject hparent | inspect hparent | exited hparent
  | killed hparent | time hparent | late hparent | sleep hparent | wake hparent =>
      rw [gives_nothing_up (undecided hparent rfl)] at hgives
      cases hgives

/-- A published marker that `spawn` has given up stays given up. -/
theorem unmissed_before {event : Event} (hnext : handshake.next s event = some s')
    (h : Unmissed s') : Unmissed s := by
  intro hgives
  cases event with
  | agent step =>
      obtain ⟨hparent, -, -, -, hpublished⟩ := act_cases hnext
      have hnone := h (by rw [hparent]; exact hgives)
      rw [hpublished] at hnone
      split at hnone
      · cases hnone
      · exact hnone
  | poll =>
      obtain ⟨hgives', hpublished⟩ := poll_given_up hgives (polls_of_poll hnext)
      rw [← hpublished]
      exact h hgives'
  | fault error =>
      simp only [handshake, Handshake.fault] at hnext
      split at hnext
      · cases hnext
        exact h rfl
      · cases hnext
        exact h rfl
      · cases hnext
  | tick elapsed =>
      cases hnext
      exact h hgives

/-- What is judged on good grounds meets the contract. -/
theorem Judged.sound (h : Judged s) (hgrounded : Grounded s) : Sound s := by
  refine ⟨h.patient, fun moment hpublished _ => ⟨fun hkilled => ?_, fun hreturned => ?_⟩,
    fun result hreturned => ?_⟩
  · have := h.unmissed (hgrounded.convicted hkilled)
    rw [hpublished] at this
    cases this
  · have := h.unmissed (by rw [hreturned]; rfl)
    rw [hpublished] at this
    cases this
  · cases result with
    | ok value => exact ⟨fun _ => hgrounded.accepted (by rw [hreturned]; rfl), fun _ => rfl⟩
    | error why =>
        have := h.unmissed (by rw [hreturned]; rfl)
        rw [this]
        exact ⟨nofun, nofun⟩

/-- At the end of `spawn`, the contract is that no published marker was given up. -/
theorem Sound.unmissed (h : Sound s) {result : Except Failure Unit}
    (hreturned : s.parent = .returned result) : Unmissed s := by
  intro hgives
  cases result with
  | ok value =>
      rw [hreturned] at hgives
      cases hgives
  | error why =>
      cases hpublished : s.publishedAt with
      | none => rfl
      | some moment =>
          have := (h.exact _ hreturned).mpr (by rw [hpublished]; rfl)
          cases this

/-- The state in which a process other than the agent enters `spawn`. -/
theorem spawn_judged (now : Nat) {entry : Entry} (h : entry ≠ .agentChild) :
    Grounded (spawn now entry) ∧ Judged (spawn now entry) := by
  cases entry with
  | agentChild => exact absurd rfl h
  | unstarted message => exact ⟨⟨nofun, nofun⟩, ⟨fun _ => rfl, nofun⟩⟩
  | started => exact ⟨⟨nofun, nofun⟩, ⟨nofun, nofun⟩⟩

end Lemmas

section Runs

variable {now : Nat} {entry : Entry} {events : List Event}

/-- The marker is in order throughout every interleaving. -/
theorem always_formed (now : Nat) (entry : Entry) (events : List Event) :
    handshake.Always Formed (spawn now entry) events := by
  have hfree : handshake.Throughout (fun _ _ => True) (spawn now entry) events :=
    System.throughout_of_events (fun _ _ _ => trivial) (spawn now entry)
  exact hfree.always (formed_spawn now entry) fun s event s' h _ hnext => h.next hnext

/-- An interleaving that falls into no gap is judged correctly in every state. -/
theorem judged_of_undisturbed (hentry : entry ≠ .agentChild)
    (h : handshake.Throughout Undisturbed (spawn now entry) events) :
    handshake.Always (fun s => (Formed s ∧ Grounded s) ∧ Judged s) (spawn now entry) events := by
  obtain ⟨hgrounded, hjudged⟩ := spawn_judged now hentry
  refine h.always ⟨⟨formed_spawn now entry, hgrounded⟩, hjudged⟩ fun s event s' hs hc hnext => ?_
  have hiff := judged_iff hs.1.1 hs.1.2 hs.2 hnext
  exact ⟨⟨hs.1.1.next hnext, hs.1.2.next hs.1.1 hnext⟩, hiff.mpr hc⟩

/-- Where the contract holds until `spawn` has returned, no step fell into a gap. -/
theorem undisturbed_of_sound {final : Handshake} {result : Except Failure Unit}
    (hentry : entry ≠ .agentChild) (hplay : handshake.play (spawn now entry) events = some final)
    (hreturned : final.parent = .returned result)
    (h : handshake.Always Sound (spawn now entry) events) :
    handshake.Throughout Undisturbed (spawn now entry) events := by
  have hunmissed : handshake.Always Unmissed (spawn now entry) events :=
    System.always_of_last hplay (h.last hplay |>.unmissed hreturned)
      fun s event s' hnext => unmissed_before hnext
  have hjudged : handshake.Always Judged (spawn now entry) events :=
    (hunmissed.and h).mono fun s hs => ⟨hs.1, hs.2.patient⟩
  obtain ⟨hgrounded, hjudged'⟩ := spawn_judged now hentry
  have hiff := System.always_iff_throughout (M := handshake) (P := Judged) (C := Undisturbed)
    (I := fun s => Formed s ∧ Grounded s) ⟨⟨formed_spawn now entry, hgrounded⟩, hjudged'⟩ hplay
    fun s event s' hs hj hnext =>
      ⟨⟨hs.1.next hnext, hs.2.next hs.1 hnext⟩, (judged_iff hs.1 hs.2 hj hnext).symm⟩
  exact hiff.mp hjudged

/-- Started by any process but the agent, `spawn` judges the agent correctly in every interleaving
that falls into no gap; an interleaving in which it has returned is judged correctly only then. -/
theorem readiness_handshake (now : Nat) (entry : Entry) (events : List Event) :
    (entry ≠ .agentChild → handshake.Throughout Undisturbed (spawn now entry) events →
      handshake.Always Sound (spawn now entry) events) ∧
    ∀ final result, handshake.play (spawn now entry) events = some final →
      final.parent = .returned result →
      (handshake.Always Sound (spawn now entry) events ↔
        entry ≠ .agentChild ∧ handshake.Throughout Undisturbed (spawn now entry) events) := by
  have hsound : entry ≠ .agentChild →
      handshake.Throughout Undisturbed (spawn now entry) events →
      handshake.Always Sound (spawn now entry) events := by
    intro hentry h
    exact (judged_of_undisturbed hentry h).mono fun s hs => hs.2.sound hs.1.2
  refine ⟨hsound, fun final result hplay hreturned => ⟨fun h => ?_, fun h => hsound h.1 h.2⟩⟩
  have hentry : entry ≠ .agentChild := by
    intro hchild
    have hhead := h.head
    rw [hchild] at hhead
    have := (hhead.exact (.ok ()) rfl).mp rfl
    cases this
  exact ⟨hentry, undisturbed_of_sound hentry hplay hreturned h⟩

end Runs

/-- A first start in which nothing falls into a gap: the marker is finished between two polls. -/
def calmStart : List Event :=
  [.agent (.ready .primary), .poll, .agent .create, .agent (.write readyMarker.length), .poll,
    .agent .sync, .poll]

/-- A first start in which `spawn` looks between the creation and the only write of the marker. -/
def hastyStart : List Event :=
  [.agent (.ready .primary), .poll, .agent .create, .poll, .agent (.write readyMarker.length),
    .poll, .poll]

theorem starts_evaluated :
    handshake.Throughout Undisturbed (spawn 0 .started) calmStart ∧
      handshake.play (spawn 0 .started) calmStart =
        some ⟨none, .serving, .returned (.ok ()), 0, readyTimeout, some 0⟩ ∧
      handshake.play (spawn 0 .started) hastyStart =
        some ⟨none, .killed, .returned (.error .invalidMarker), 0, readyTimeout, some 0⟩ := by
  decide +kernel

theorem calm_start_handshake :
    handshake.Always Sound (spawn 0 .started) calmStart ∧
      (handshake.Always Sound (spawn 0 .started) calmStart ↔ Entry.started ≠ .agentChild ∧
        handshake.Throughout Undisturbed (spawn 0 .started) calmStart) := by
  obtain ⟨hundisturbed, hplay, -⟩ := starts_evaluated
  have h := readiness_handshake 0 .started calmStart
  exact ⟨h.1 nofun hundisturbed, h.2 _ _ hplay rfl⟩

/-- An agent that published its marker 15 seconds before the deadline is killed, and `spawn`
reports an invalid marker. -/
theorem hasty_start_kills :
    ∃ final, handshake.play (spawn 0 .started) hastyStart = some final ∧
      final.publishedAt = some 0 ∧ 0 < final.deadline ∧ final.agent = .killed ∧
      final.parent = .returned (.error .invalidMarker) ∧
      ¬ handshake.Always Sound (spawn 0 .started) hastyStart := by
  obtain ⟨-, -, hplay⟩ := starts_evaluated
  refine ⟨_, hplay, rfl, by decide, rfl, rfl, fun h => ?_⟩
  exact ((h.last hplay).spared 0 rfl (by decide)).1 rfl

end PamDesktop.Shell.BackgroundAgent
