import Mathlib.Logic.Function.Basic
import PamDesktop.Foundations.Serde
import PamDesktop.Foundations.Transition

/-!
# One primary instance

The steps of any number of processes that run `acquire`, `listen` and the drop of the guard on one
socket path, with every failure of a system call and with kills. A socket is named by the process
that bound it and a connection by the process that made it. `single_instance` says in which runs
there is one primary instance that handles every forwarded activation once.
-/

namespace PamDesktop.Shell.Lifecycle

open Foundations

/-! ## Messages -/

/-- `Activation`. -/
structure Activation where
  arguments : List String
deriving DecidableEq

/-- `Activation` as JSON. -/
def Activation.codec : Codec Activation :=
  Record.start Activation Activation.mk
    |>.required "arguments" (·.arguments) (.list .text)
    |>.codec true

/-- `MAX_ACTIVATION_BYTES`. -/
def maxActivationBytes : Nat := 64 * 1024

/-! ## Processes and connections -/

/-- Where a process stands. `taken` is after a `bind` that found the address in use, `stale`
after a `forward` that failed and `removed` after the removal that follows. From `primary` on the
process has a guard: `unlistened` without a listener, `serving` with the thread and the client
that the thread is busy with, where `true` means that the guard is being dropped. -/
inductive Stage where
  | started | taken | connected | stale | removed | forwarded | failed
  | bound | primary | unlistened
  | serving (dropping : Bool) (busy : Option Nat)
  | dropping | joined | unlinked | dropped | killed
deriving DecidableEq

/-- The listener is open. -/
def Stage.isOpen : Stage → Bool
  | .bound | .primary | .serving _ _ | .dropping | .unlinked => true
  | _ => false

/-- `acquire` has returned a guard, which is not being dropped. -/
def Stage.isPrimary : Stage → Bool
  | .primary | .unlistened | .serving false _ => true
  | _ => false

/-- The process has bound the path, and its own removal of it is still to come. -/
def Stage.owns : Stage → Bool
  | .bound | .primary | .unlistened | .serving _ _ | .dropping | .joined => true
  | _ => false

/-- `acquire` has returned. -/
def Stage.returned : Stage → Bool
  | .started | .taken | .connected | .stale | .removed | .bound | .killed => false
  | _ => true

/-- The process is waiting for an answer, has been answered or is dead. -/
def Stage.waits : Stage → Bool
  | .connected | .forwarded | .killed => true
  | _ => false

/-- The client that the thread is busy with. -/
def Stage.busy : Stage → Option Nat
  | .serving _ busy => busy
  | _ => none

/-- The connection of a process, at the process that accepts it. `sent` says that the payload is
written and `closed` whether an acknowledgement was written before. -/
inductive Link where
  | unconnected
  | queued (server : Nat) (sent : Bool)
  | reading (server : Nat) (sent : Bool)
  | parsed (server : Nat) (activation : Activation)
  | acknowledged (server : Nat) (activation : Activation)
  | handled (server : Nat)
  | closed (acknowledged : Bool)
deriving DecidableEq

/-- The process whose thread is busy with the connection. -/
def Link.server : Link → Option Nat
  | .reading server _ | .parsed server _ | .acknowledged server _ | .handled server => some server
  | _ => none

/-- The acknowledgement has been written. -/
def Link.isAcknowledged : Link → Bool
  | .acknowledged _ _ | .handled _ | .closed true => true
  | _ => false

/-- The handler has been called. -/
def Link.isHandled : Link → Bool
  | .handled _ | .closed true => true
  | _ => false

/-- The connection when the process that accepts it closes its ends. -/
def Link.shut (process : Nat) : Link → Link
  | .queued server sent => if server = process then .closed false else .queued server sent
  | .reading server sent => if server = process then .closed false else .reading server sent
  | .parsed server activation =>
      if server = process then .closed false else .parsed server activation
  | .acknowledged server activation =>
      if server = process then .closed true else .acknowledged server activation
  | .handled server => if server = process then .closed true else .handled server
  | link => link

/-- `path` is the process whose socket has the path, `handled` the calls of the handlers with the
client. -/
structure State where
  path : Option Nat
  stage : Nat → Stage
  link : Nat → Link
  handled : List (Nat × Activation)

namespace State

/-- No process has begun. -/
def start : State where
  path := none
  stage _ := .started
  link _ := .unconnected
  handled := []

/-- A process goes on. -/
def goto (s : State) (p : Nat) (stage : Stage) : State :=
  { s with stage := Function.update s.stage p stage }

/-- A connection goes on. -/
def advance (s : State) (client : Nat) (link : Link) : State :=
  { s with link := Function.update s.link client link }

/-- A process closes its listener and its connections. -/
def shut (s : State) (p : Nat) : State := { s with link := fun client => (s.link client).shut p }

end State

/-! ## Steps -/

/-- What a process does next. `fail` is a system call that fails, `giveUp` the read timeout of two
seconds or another failure on the connection. -/
inductive Event where
  | bind (p : Nat)
  | secure (p : Nat)
  | connect (p : Nat)
  | send (p : Nat)
  | finish (p : Nat)
  | giveUp (p : Nat)
  | remove (p : Nat)
  | listen (p : Nat)
  | accept (p client : Nat)
  | receive (p : Nat)
  | acknowledge (p : Nat)
  | handle (p : Nat)
  | close (p : Nat)
  | drop (p : Nat)
  | join (p : Nat)
  | unlink (p : Nat)
  | release (p : Nat)
  | fail (p : Nat)
  | kill (p : Nat)

section Next

-- the arguments that a process is started with, and the parser of the listener
variable (activation : Nat → Activation) (parse : List UInt8 → Option Json) (s : State)

/-- `UnixListener::bind`, the first and the second time. -/
def bind (p : Nat) : Option State :=
  match s.stage p, s.path with
  | .started, none | .removed, none => some { s.goto p .bound with path := some p }
  | .started, some _ => some (s.goto p .taken)
  | .removed, some _ => some (s.goto p .failed)
  | _, _ => none

/-- The start of `forward`, up to the connection. -/
def connect (p : Nat) : Option State :=
  match s.stage p with
  | .taken =>
      if maxActivationBytes < (Activation.codec.toVec (activation p)).length then
        some (s.goto p .stale)
      else
        match s.path with
        | none => some (s.goto p .stale)
        | some server =>
            if (s.stage server).isOpen then
              some ((s.goto p .connected).advance p (.queued server false))
            else some (s.goto p .stale)
  | _ => none

/-- The payload is written. -/
def send (p : Nat) : Option State :=
  match s.stage p, s.link p with
  | .connected, .queued server false => some (s.advance p (.queued server true))
  | .connected, .reading server false => some (s.advance p (.reading server true))
  | _, _ => none

/-- `forward` finds the connection closed and looks at what it has read. -/
def finish (p : Nat) : Option State :=
  match s.stage p, s.link p with
  | .connected, .closed acknowledged =>
      some (s.goto p (if acknowledged then .forwarded else .stale))
  | _, _ => none

/-- `forward` ends before the connection is closed. -/
def giveUp (p : Nat) : Option State :=
  match s.stage p, s.link p with
  | .connected, .closed _ => none
  | .connected, _ => some (s.goto p .stale)
  | _, _ => none

/-- `remove_file` in `acquire`. -/
def remove (p : Nat) : Option State :=
  match s.stage p, s.path with
  | .stale, none => some (s.goto p .failed)
  | .stale, some _ => some { s.goto p .removed with path := none }
  | _, _ => none

/-- The thread takes a connection out of the queue. -/
def accept (p client : Nat) : Option State :=
  match s.stage p, s.link client with
  | .serving dropping none, .queued server sent =>
      if server = p then
        some ((s.goto p (.serving dropping (some client))).advance client (.reading p sent))
      else none
  | _, _ => none

/-- The activation that the thread makes of what it has read. -/
def received (client : Nat) (sent : Bool) : Option Activation :=
  let bytes := if sent then Activation.codec.toVec (activation client) else []
  if maxActivationBytes < bytes.length then none else Activation.codec.fromSlice parse bytes

/-- The thread has read until the client has closed its side. -/
def receive (p : Nat) : Option State :=
  match s.stage p with
  | .serving dropping (some client) =>
      match s.link client with
      | .reading _ sent =>
          if sent = true ∨ s.stage client ≠ .connected then
            match received activation parse client sent with
            | some activation => some (s.advance client (.parsed p activation))
            | none => some ((s.goto p (.serving dropping none)).advance client (.closed false))
          else none
      | _ => none
  | _ => none

/-- The thread writes the acknowledgement, which fails when the client is gone. -/
def acknowledge (p : Nat) : Option State :=
  match s.stage p with
  | .serving dropping (some client) =>
      match s.link client with
      | .parsed _ activation =>
          if s.stage client = .connected then
            some (s.advance client (.acknowledged p activation))
          else some ((s.goto p (.serving dropping none)).advance client (.closed false))
      | _ => none
  | _ => none

/-- The thread calls the handler. -/
def handle (p : Nat) : Option State :=
  match s.stage p with
  | .serving _ (some client) =>
      match s.link client with
      | .acknowledged _ activation =>
          some { s.advance client (.handled p) with
            handled := s.handled ++ [(client, activation)] }
      | _ => none
  | _ => none

/-- The thread is done with the connection. -/
def close (p : Nat) : Option State :=
  match s.stage p with
  | .serving dropping (some client) =>
      match s.link client with
      | .handled _ => some ((s.goto p (.serving dropping none)).advance client (.closed true))
      | _ => none
  | _ => none

/-- A system call fails. -/
def fail (p : Nat) : Option State :=
  match s.stage p with
  | .started | .removed | .stale => some (s.goto p .failed)
  | .taken => some (s.goto p .stale)
  | .bound => some ((s.goto p .failed).shut p)
  | .primary => some ((s.goto p .unlistened).shut p)
  | .serving false none => some ((s.goto p .unlistened).shut p)
  | .serving true none => some ((s.goto p .joined).shut p)
  | .joined => some (s.goto p .dropped)
  | .dropping => some (s.goto p .unlinked)
  | _ => none

/-- One step. -/
def next : Event → Option State
  | .bind p => bind s p
  | .secure p =>
      match s.stage p, s.path with
      | .bound, some _ => some (s.goto p .primary)
      | _, _ => none
  | .connect p => connect activation s p
  | .send p => send s p
  | .finish p => finish s p
  | .giveUp p => giveUp s p
  | .remove p => remove s p
  | .listen p => if s.stage p = .primary then some (s.goto p (.serving false none)) else none
  | .accept p client => accept s p client
  | .receive p => receive activation parse s p
  | .acknowledge p => acknowledge s p
  | .handle p => handle s p
  | .close p => close s p
  | .drop p =>
      match s.stage p with
      | .primary => some (s.goto p .dropping)
      | .unlistened => some (s.goto p .joined)
      | .serving false busy => some (s.goto p (.serving true busy))
      | _ => none
  | .join p =>
      if s.stage p = .serving true none then some ((s.goto p .joined).shut p) else none
  | .unlink p =>
      match s.stage p with
      | .joined => some { s.goto p .dropped with path := none }
      | .dropping => some { s.goto p .unlinked with path := none }
      | _ => none
  | .release p => if s.stage p = .unlinked then some ((s.goto p .dropped).shut p) else none
  | .fail p => fail s p
  | .kill p =>
      match s.stage p with
      | .forwarded | .failed | .dropped | .killed => none
      | _ => some ((s.goto p .killed).shut p)

end Next

/-- The instances of one application. -/
def instances (activation : Nat → Activation) (parse : List UInt8 → Option Json) :
    System State Event where
  next := next activation parse

/-- The acknowledgement is written and the handler is not called yet. -/
def Link.isPending : Link → Bool
  | .acknowledged _ _ => true
  | _ => false

/-- A socket is removed as stale only when no instance owns it any more. -/
def Unowned (s : State) : Event → Prop
  | .remove _ => (s.path.all fun q => !(s.stage q).owns) = true
  | _ => True

/-- What keeps the instances apart: a socket is removed as stale only when no instance owns it any
more, `forward` does not give up once the acknowledgement is written, and an instance is not killed
between the acknowledgement and the handler. -/
def Orderly (s : State) (event : Event) : Prop :=
  (match event with
    | .remove _ => s.path.all fun q => !(s.stage q).owns
    | .giveUp p => !(s.link p).isAcknowledged
    | .kill p => (s.stage p).busy.all fun client => !(s.link client).isPending
    | _ => true) = true

instance (s : State) (event : Event) : Decidable (Orderly s event) :=
  inferInstanceAs (Decidable (_ = true))

/-! ## What a step leaves alone -/

variable {s s' : State} {p : Nat} {stage : Stage}

@[simp] theorem goto_stage : (s.goto p stage).stage p = stage := Function.update_self ..

@[simp] theorem goto_stage_ne {q : Nat} (h : q ≠ p) : (s.goto p stage).stage q = s.stage q :=
  Function.update_of_ne h ..

@[simp] theorem advance_link {client : Nat} {link : Link} :
    (s.advance client link).link client = link := Function.update_self ..

@[simp] theorem advance_link_ne {client other : Nat} {link : Link} (h : other ≠ client) :
    (s.advance client link).link other = s.link other := Function.update_of_ne h ..

/-! ## What a step does -/

/-- A process goes on by itself and nothing else changes. -/
inductive Quiet : Stage → Stage → Prop
  | taken : Quiet .started .taken
  | rebound : Quiet .removed .failed
  | secure : Quiet .bound .primary
  | connect : Quiet .taken .stale
  | listen : Quiet .primary (.serving false none)
  | dropPrimary : Quiet .primary .dropping
  | dropUnlistened : Quiet .unlistened .joined
  | dropServing {busy : Option Nat} : Quiet (.serving false busy) (.serving true busy)
  | failStarted : Quiet .started .failed
  | failStale : Quiet .stale .failed
  | failJoined : Quiet .joined .dropped
  | failDropping : Quiet .dropping .unlinked

/-- A process that is busy with no client closes its listener. -/
inductive Closes : Stage → Stage → Prop
  | bound : Closes .bound .failed
  | primary : Closes .primary .unlistened
  | serving : Closes (.serving false none) .unlistened
  | dropping : Closes (.serving true none) .joined
  | unlinked : Closes .unlinked .dropped

/-- What the steps are. -/
inductive Steps (activation : Nat → Activation) (parse : List UInt8 → Option Json) (s : State) :
    Event → State → Prop
  | bind {p : Nat} : s.stage p = .started ∨ s.stage p = .removed → s.path = none →
      Steps activation parse s (.bind p) { s.goto p .bound with path := some p }
  | quiet {event : Event} {p : Nat} {stage : Stage} : (∀ q, event ≠ .remove q) →
      Quiet (s.stage p) stage → Steps activation parse s event (s.goto p stage)
  | closes {event : Event} {p : Nat} {stage : Stage} : (∀ q, event ≠ .remove q) →
      Closes (s.stage p) stage → Steps activation parse s event ((s.goto p stage).shut p)
  | connect {p server : Nat} : s.stage p = .taken →
      Steps activation parse s (.connect p)
        ((s.goto p .connected).advance p (.queued server false))
  | send {p server : Nat} : s.stage p = .connected → s.link p = .queued server false →
      Steps activation parse s (.send p) (s.advance p (.queued server true))
  | sendRead {p server : Nat} : s.stage p = .connected → s.link p = .reading server false →
      Steps activation parse s (.send p) (s.advance p (.reading server true))
  | forwarded {p : Nat} : s.stage p = .connected → s.link p = .closed true →
      Steps activation parse s (.finish p) (s.goto p .forwarded)
  | refused {p : Nat} : s.stage p = .connected → s.link p = .closed false →
      Steps activation parse s (.finish p) (s.goto p .stale)
  | giveUp {p : Nat} : s.stage p = .connected →
      Steps activation parse s (.giveUp p) (s.goto p .stale)
  | unremoved {p : Nat} : s.stage p = .stale → s.path = none →
      Steps activation parse s (.remove p) (s.goto p .failed)
  | remove {p owner : Nat} : s.stage p = .stale → s.path = some owner →
      Steps activation parse s (.remove p) { s.goto p .removed with path := none }
  | accept {p client : Nat} {dropping sent : Bool} : s.stage p = .serving dropping none →
      s.link client = .queued p sent →
      Steps activation parse s (.accept p client)
        ((s.goto p (.serving dropping (some client))).advance client (.reading p sent))
  | receive {p client server : Nat} {dropping sent : Bool} {carried : Activation} :
      s.stage p = .serving dropping (some client) → s.link client = .reading server sent →
      received activation parse client sent = some carried →
      Steps activation parse s (.receive p) (s.advance client (.parsed p carried))
  | unread {p client server : Nat} {dropping sent : Bool} :
      s.stage p = .serving dropping (some client) → s.link client = .reading server sent →
      Steps activation parse s (.receive p)
        ((s.goto p (.serving dropping none)).advance client (.closed false))
  | acknowledge {p client server : Nat} {dropping : Bool} {carried : Activation} :
      s.stage p = .serving dropping (some client) → s.link client = .parsed server carried →
      s.stage client = .connected →
      Steps activation parse s (.acknowledge p) (s.advance client (.acknowledged p carried))
  | unacknowledged {p client server : Nat} {dropping : Bool} {carried : Activation} :
      s.stage p = .serving dropping (some client) → s.link client = .parsed server carried →
      Steps activation parse s (.acknowledge p)
        ((s.goto p (.serving dropping none)).advance client (.closed false))
  | handle {p client server : Nat} {dropping : Bool} {carried : Activation} :
      s.stage p = .serving dropping (some client) →
      s.link client = .acknowledged server carried →
      Steps activation parse s (.handle p) { s.advance client (.handled p) with
        handled := s.handled ++ [(client, carried)] }
  | close {p client server : Nat} {dropping : Bool} :
      s.stage p = .serving dropping (some client) → s.link client = .handled server →
      Steps activation parse s (.close p)
        ((s.goto p (.serving dropping none)).advance client (.closed true))
  | unlinkJoined {p : Nat} : s.stage p = .joined →
      Steps activation parse s (.unlink p) { s.goto p .dropped with path := none }
  | unlink {p : Nat} : s.stage p = .dropping →
      Steps activation parse s (.unlink p) { s.goto p .unlinked with path := none }
  | kill {p : Nat} : Steps activation parse s (.kill p) ((s.goto p .killed).shut p)

section Steps

variable {activation : Nat → Activation} {parse : List UInt8 → Option Json} {event : Event}

theorem Steps.move (hevent : ∀ q, event ≠ .remove q) {old : Stage} (hstage : s.stage p = old)
    (hquiet : Quiet old stage) : Steps activation parse s event (s.goto p stage) := by
  subst hstage
  exact .quiet hevent hquiet

theorem Steps.shut (hevent : ∀ q, event ≠ .remove q) {old : Stage} (hstage : s.stage p = old)
    (hcloses : Closes old stage) : Steps activation parse s event ((s.goto p stage).shut p) := by
  subst hstage
  exact .closes hevent hcloses

theorem steps_of_next (hnext : next activation parse s event = some s') :
    Steps activation parse s event s' := by
  cases event with
  | bind p =>
      simp only [next, bind] at hnext
      split at hnext
      · rename_i hstage hpath
        cases hnext
        exact .bind (.inl hstage) hpath
      · rename_i hstage hpath
        cases hnext
        exact .bind (.inr hstage) hpath
      · rename_i hstage _
        cases hnext
        exact .move nofun hstage .taken
      · rename_i hstage _
        cases hnext
        exact .move nofun hstage .rebound
      · cases hnext
  | secure p =>
      simp only [next] at hnext
      split at hnext
      · rename_i hstage _
        cases hnext
        exact .move nofun hstage .secure
      · cases hnext
  | connect p =>
      simp only [next, connect] at hnext
      split at hnext
      · rename_i hstage
        split at hnext
        · cases hnext
          exact .move nofun hstage .connect
        · split at hnext
          · cases hnext
            exact .move nofun hstage .connect
          · split at hnext
            · cases hnext
              exact .connect hstage
            · cases hnext
              exact .move nofun hstage .connect
      · cases hnext
  | send p =>
      simp only [next, send] at hnext
      split at hnext
      · rename_i hstage hlink
        cases hnext
        exact .send hstage hlink
      · rename_i hstage hlink
        cases hnext
        exact .sendRead hstage hlink
      · cases hnext
  | finish p =>
      simp only [next, finish] at hnext
      split at hnext
      · rename_i acknowledged hstage hlink
        cases hnext
        cases acknowledged with
        | true => exact .forwarded hstage hlink
        | false => exact .refused hstage hlink
      · cases hnext
  | giveUp p =>
      simp only [next, giveUp] at hnext
      split at hnext
      · cases hnext
      · rename_i hstage _
        cases hnext
        exact .giveUp hstage
      · cases hnext
  | remove p =>
      simp only [next, remove] at hnext
      split at hnext
      · rename_i hstage hpath
        cases hnext
        exact .unremoved hstage hpath
      · rename_i hstage hpath
        cases hnext
        exact .remove hstage hpath
      · cases hnext
  | listen p =>
      simp only [next] at hnext
      split at hnext
      · rename_i hstage
        cases hnext
        exact .move nofun hstage .listen
      · cases hnext
  | accept p client =>
      simp only [next, accept] at hnext
      split at hnext
      · rename_i hstage hlink
        split at hnext
        · rename_i hserver
          cases hnext
          exact .accept hstage (hserver ▸ hlink)
        · cases hnext
      · cases hnext
  | receive p =>
      simp only [next, receive] at hnext
      split at hnext
      · rename_i hstage
        split at hnext
        · rename_i hlink
          split at hnext
          · split at hnext
            · rename_i hreceived
              cases hnext
              exact .receive hstage hlink hreceived
            · cases hnext
              exact .unread hstage hlink
          · cases hnext
        · cases hnext
      · cases hnext
  | acknowledge p =>
      simp only [next, acknowledge] at hnext
      split at hnext
      · rename_i hstage
        split at hnext
        · rename_i hlink
          split at hnext
          · rename_i hconnected
            cases hnext
            exact .acknowledge hstage hlink hconnected
          · cases hnext
            exact .unacknowledged hstage hlink
        · cases hnext
      · cases hnext
  | handle p =>
      simp only [next, handle] at hnext
      split at hnext
      · rename_i hstage
        split at hnext
        · rename_i hlink
          cases hnext
          exact .handle hstage hlink
        · cases hnext
      · cases hnext
  | close p =>
      simp only [next, close] at hnext
      split at hnext
      · rename_i hstage
        split at hnext
        · rename_i hlink
          cases hnext
          exact .close hstage hlink
        · cases hnext
      · cases hnext
  | drop p =>
      simp only [next] at hnext
      split at hnext
      · rename_i hstage
        cases hnext
        exact .move nofun hstage .dropPrimary
      · rename_i hstage
        cases hnext
        exact .move nofun hstage .dropUnlistened
      · rename_i hstage
        cases hnext
        exact .move nofun hstage .dropServing
      · cases hnext
  | join p =>
      simp only [next] at hnext
      split at hnext
      · rename_i hstage
        cases hnext
        exact .shut nofun hstage .dropping
      · cases hnext
  | unlink p =>
      simp only [next] at hnext
      split at hnext
      · rename_i hstage
        cases hnext
        exact .unlinkJoined hstage
      · rename_i hstage
        cases hnext
        exact .unlink hstage
      · cases hnext
  | release p =>
      simp only [next] at hnext
      split at hnext
      · rename_i hstage
        cases hnext
        exact .shut nofun hstage .unlinked
      · cases hnext
  | fail p =>
      simp only [next, fail] at hnext
      split at hnext
      · rename_i hstage
        cases hnext
        exact .move nofun hstage .failStarted
      · rename_i hstage
        cases hnext
        exact .move nofun hstage .rebound
      · rename_i hstage
        cases hnext
        exact .move nofun hstage .failStale
      · rename_i hstage
        cases hnext
        exact .move nofun hstage .connect
      · rename_i hstage
        cases hnext
        exact .shut nofun hstage .bound
      · rename_i hstage
        cases hnext
        exact .shut nofun hstage .primary
      · rename_i hstage
        cases hnext
        exact .shut nofun hstage .serving
      · rename_i hstage
        cases hnext
        exact .shut nofun hstage .dropping
      · rename_i hstage
        cases hnext
        exact .move nofun hstage .failJoined
      · rename_i hstage
        cases hnext
        exact .move nofun hstage .failDropping
      · cases hnext
  | kill p =>
      simp only [next] at hnext
      split at hnext
      · cases hnext
      · cases hnext
      · cases hnext
      · cases hnext
      · cases hnext
        exact .kill

end Steps

theorem Quiet.owns {old : Stage} (h : Quiet old stage) (howns : stage.owns = true) :
    old.owns = true := by
  cases h with
  | secure | listen | dropPrimary | dropUnlistened | dropServing => rfl
  | _ => cases howns

theorem Quiet.waits {old : Stage} (h : Quiet old stage) : old.waits = false := by
  cases h <;> rfl

theorem Quiet.busy {old : Stage} (h : Quiet old stage) : stage.busy = old.busy := by
  cases h <;> rfl

theorem Quiet.not_forwarded {old : Stage} (h : Quiet old stage) : stage ≠ .forwarded := by
  cases h <;> nofun

theorem Closes.owns {old : Stage} (h : Closes old stage) (howns : stage.owns = true) :
    old.owns = true := by
  cases h with
  | primary | serving | dropping => rfl
  | _ => cases howns

theorem Closes.busy {old : Stage} (h : Closes old stage) : old.busy = none := by
  cases h <;> rfl

theorem Closes.waits {old : Stage} (h : Closes old stage) : old.waits = false := by
  cases h <;> rfl

theorem Closes.not_forwarded {old : Stage} (h : Closes old stage) : stage ≠ .forwarded := by
  cases h <;> nofun

/-! ## The path -/

/-- The path has the socket of every instance that owns it. -/
def Kept (s : State) : Prop := ∀ p, (s.stage p).owns = true → s.path = some p

theorem kept_start : Kept .start := fun _ h => by cases h

/-- A process that owns the path only if it did before changes nothing. -/
theorem Kept.goto (h : Kept s) (howns : stage.owns = true → (s.stage p).owns = true) :
    Kept (s.goto p stage) := by
  intro q hq
  by_cases hqp : q = p
  · subst hqp
    rw [goto_stage] at hq
    exact h q (howns hq)
  · rw [goto_stage_ne hqp] at hq
    exact h q hq

/-- A path that nobody has can be bound. -/
theorem Kept.bound (h : Kept s) (hpath : s.path = none) :
    Kept { s.goto p .bound with path := some p } := by
  intro q hq
  by_cases hqp : q = p
  · rw [hqp]
  · have hq' : ((s.goto p .bound).stage q).owns = true := hq
    rw [goto_stage_ne hqp] at hq'
    have := h q hq'
    rw [hpath] at this
    cases this

/-- A path can be removed when nobody else owns it. -/
theorem Kept.removed (h : Kept s) (hstage : stage.owns = false)
    (hpath : ∀ q, q ≠ p → s.path = some q → (s.stage q).owns = false) :
    Kept { s.goto p stage with path := none } := by
  intro q hq
  have hq' : ((s.goto p stage).stage q).owns = true := hq
  by_cases hqp : q = p
  · rw [hqp, goto_stage, hstage] at hq'
    cases hq'
  · rw [goto_stage_ne hqp] at hq'
    rw [hpath q hqp (h q hq')] at hq'
    cases hq'

/-- The owner of the path removes its own socket. -/
theorem Kept.unlinked (h : Kept s) (hstage : stage.owns = false)
    (howns : (s.stage p).owns = true) : Kept { s.goto p stage with path := none } := by
  refine h.removed hstage fun q hne hq => ?_
  rw [h p howns] at hq
  exact absurd (Option.some.inj hq).symm hne

/-! ## The connections -/

/-- The calls of handlers for a client. -/
def State.calls (s : State) (client : Nat) : List (Nat × Activation) :=
  s.handled.filter fun call => call.1 = client

/-- How stages, connections and calls belong together. -/
structure Linked (activation : Nat → Activation) (s : State) : Prop where
  served : ∀ client p, (s.link client).server = some p → (s.stage p).busy = some client
  carried : ∀ client server carried, s.link client = .parsed server carried ∨
    s.link client = .acknowledged server carried → carried = activation client
  unanswered : ∀ client, (s.stage client).waits = false →
    (s.link client).isAcknowledged = false
  answered : ∀ client, s.stage client = .forwarded → s.link client = .closed true
  called : ∀ client, s.calls client =
    if (s.link client).isHandled then [(client, activation client)] else []

section Linked

variable {activation : Nat → Activation}

theorem linked_start : Linked activation .start where
  served _ _ h := by cases h
  carried _ _ _ h := by
    obtain h | h := h
    · cases h
    · cases h
  unanswered _ _ := rfl
  answered _ h := by cases h
  called _ := rfl

/-- What has not been acknowledged has not been handled. -/
theorem not_handled {link : Link} (h : link.isAcknowledged = false) : link.isHandled = false := by
  cases link with
  | handled server => cases h
  | closed acknowledged => cases acknowledged with
    | true => cases h
    | false => rfl
  | _ => rfl

/-- A process goes on and its thread stays busy with what it is busy with. -/
theorem Linked.goto (h : Linked activation s)
    (hbusy : ∀ client, (s.link client).server = some p → stage.busy = some client)
    (hwaits : stage.waits = false → (s.link p).isAcknowledged = false)
    (hforwarded : stage = .forwarded → s.link p = .closed true) :
    Linked activation (s.goto p stage) where
  served client q hserver := by
    by_cases hqp : q = p
    · subst hqp
      rw [goto_stage]
      exact hbusy client hserver
    · rw [goto_stage_ne hqp]
      exact h.served client q hserver
  carried := h.carried
  unanswered client hclient := by
    by_cases hp : client = p
    · subst hp
      rw [goto_stage] at hclient
      exact hwaits hclient
    · rw [goto_stage_ne hp] at hclient
      exact h.unanswered client hclient
  answered client hclient := by
    by_cases hp : client = p
    · subst hp
      rw [goto_stage] at hclient
      exact hforwarded hclient
    · rw [goto_stage_ne hp] at hclient
      exact h.answered client hclient
  called := h.called

/-- A process that waits for no answer goes on. -/
theorem Linked.move (h : Linked activation s) {old : Stage} (hold : s.stage p = old)
    (hwaits : old.waits = false) (hbusy : stage.busy = old.busy) (hne : stage ≠ .forwarded) :
    Linked activation (s.goto p stage) := by
  rw [← hold] at hwaits hbusy
  refine h.goto (fun client hserver => ?_) (fun _ => h.unanswered p hwaits) fun hstage => ?_
  · rw [hbusy]
    exact h.served client p hserver
  · exact absurd hstage hne

/-- The path does not matter. -/
theorem Linked.onPath (h : Linked activation s) {path : Option Nat} :
    Linked activation ⟨path, s.stage, s.link, s.handled⟩ :=
  ⟨h.served, h.carried, h.unanswered, h.answered, h.called⟩

/-- A connection goes on without a call of the handler. -/
theorem Linked.advance (h : Linked activation s) {client : Nat} {link : Link}
    (hserver : ∀ p, link.server = some p → (s.stage p).busy = some client)
    (hcarried : ∀ server carried, link = .parsed server carried ∨
      link = .acknowledged server carried → carried = activation client)
    (hwaits : (s.stage client).waits = false → link.isAcknowledged = false)
    (hforwarded : s.stage client ≠ .forwarded)
    (hhandled : link.isHandled = (s.link client).isHandled) :
    Linked activation (s.advance client link) where
  served other p hp := by
    by_cases hclient : other = client
    · subst hclient
      rw [advance_link] at hp
      exact hserver p hp
    · rw [advance_link_ne hclient] at hp
      exact h.served other p hp
  carried other server carried hlink := by
    by_cases hclient : other = client
    · subst hclient
      rw [advance_link] at hlink
      exact hcarried server carried hlink
    · rw [advance_link_ne hclient] at hlink
      exact h.carried other server carried hlink
  unanswered other hother := by
    by_cases hclient : other = client
    · subst hclient
      rw [advance_link]
      exact hwaits hother
    · rw [advance_link_ne hclient]
      exact h.unanswered other hother
  answered other hother := by
    by_cases hclient : other = client
    · subst hclient
      exact absurd hother hforwarded
    · rw [advance_link_ne hclient]
      exact h.answered other hother
  called other := by
    by_cases hclient : other = client
    · subst hclient
      rw [advance_link, hhandled]
      exact h.called other
    · rw [advance_link_ne hclient]
      exact h.called other

/-- Nobody whose connection is still open has been forwarded. -/
theorem Linked.not_forwarded (h : Linked activation s) {client : Nat}
    (hlink : s.link client ≠ .closed true) : s.stage client ≠ .forwarded :=
  fun hstage => hlink (h.answered client hstage)

/-- The thread calls the handler for an acknowledged connection. -/
theorem Linked.call (h : Linked activation s) {client server : Nat} {carried : Activation}
    (hlink : s.link client = .acknowledged server carried)
    (hbusy : (s.stage p).busy = some client) :
    Linked activation { s.advance client (.handled p) with
      handled := s.handled ++ [(client, activation client)] } := by
  have hnone := h.called client
  rw [hlink] at hnone
  have hwaits : (s.stage client).waits = true := by
    by_contra hwaits
    have := h.unanswered client (Bool.eq_false_iff.mpr hwaits)
    rw [hlink] at this
    cases this
  constructor
  case served =>
    intro other q hserver
    by_cases hother : other = client
    · subst hother
      have hq : ((s.advance other (.handled p)).link other).server = some q := hserver
      rw [advance_link] at hq
      obtain rfl : p = q := Option.some.inj hq
      exact hbusy
    · have hq : ((s.advance client (.handled p)).link other).server = some q := hserver
      rw [advance_link_ne hother] at hq
      exact h.served other q hq
  case carried =>
    intro other q carried hcarried
    have hq : (s.advance client (.handled p)).link other = .parsed q carried ∨
      (s.advance client (.handled p)).link other = .acknowledged q carried := hcarried
    by_cases hother : other = client
    · subst hother
      rw [advance_link] at hq
      obtain hq | hq := hq
      · cases hq
      · cases hq
    · rw [advance_link_ne hother] at hq
      exact h.carried other q carried hq
  case unanswered =>
    intro other hclient
    show ((s.advance client (.handled p)).link other).isAcknowledged = false
    by_cases hother : other = client
    · subst hother
      have hstage : (s.stage other).waits = false := hclient
      rw [hwaits] at hstage
      cases hstage
    · rw [advance_link_ne hother]
      exact h.unanswered other hclient
  case answered =>
    intro other hclient
    show (s.advance client (.handled p)).link other = .closed true
    by_cases hother : other = client
    · subst hother
      have := h.answered other hclient
      rw [hlink] at this
      cases this
    · rw [advance_link_ne hother]
      exact h.answered other hclient
  case called =>
    intro other
    show (s.handled ++ [(client, activation client)]).filter (fun call => call.1 = other) =
      if ((s.advance client (.handled p)).link other).isHandled then _ else _
    rw [List.filter_append]
    by_cases hother : other = client
    · subst hother
      rw [advance_link, show s.handled.filter (fun call => call.1 = other) = [] from hnone]
      simp [Link.isHandled]
    · rw [advance_link_ne hother, ← h.called other, State.calls]
      simp [Ne.symm hother]

/-- A connection that has no activation carries no other. -/
theorem uncarried {link : Link} {client : Nat} (hparsed : ∀ server carried,
      link ≠ .parsed server carried) (hacknowledged : ∀ server carried,
      link ≠ .acknowledged server carried) (server : Nat) (carried : Activation)
    (h : link = .parsed server carried ∨ link = .acknowledged server carried) :
    carried = activation client := by
  obtain h | h := h
  · exact absurd h (hparsed server carried)
  · exact absurd h (hacknowledged server carried)

/-- The thread is done with a connection. -/
theorem Linked.release (h : Linked activation s) {dropping : Bool} {client : Nat}
    {acknowledged : Bool} (hstage : s.stage p = .serving dropping (some client))
    (hlink : s.link client ≠ .closed true)
    (hacknowledged : (s.link client).isAcknowledged = acknowledged)
    (hhandled : (s.link client).isHandled = acknowledged) :
    Linked activation
      ((s.goto p (.serving dropping none)).advance client (.closed acknowledged)) := by
  have hclosed : Linked activation (s.advance client (.closed acknowledged)) := by
    refine h.advance nofun (uncarried nofun nofun) (fun hwaits => ?_) (h.not_forwarded hlink) ?_
    · have hnone := h.unanswered client hwaits
      rw [hacknowledged] at hnone
      rw [hnone]
      rfl
    · rw [hhandled]
      cases acknowledged <;> rfl
  have hwaits : ((s.advance client (.closed acknowledged)).stage p).waits = false := by
    show (s.stage p).waits = false
    rw [hstage]
    rfl
  refine hclosed.goto (fun other hserver => ?_) (fun _ => hclosed.unanswered p hwaits) nofun
  have hbusy := hclosed.served other p hserver
  have hother : (s.stage p).busy = some other := hbusy
  rw [hstage] at hother
  obtain rfl : client = other := Option.some.inj hother
  rw [advance_link] at hserver
  cases hserver

theorem server_shut {link : Link} {q : Nat} (h : (link.shut p).server = some q) :
    link.server = some q ∧ q ≠ p := by
  cases link <;> grind [Link.shut, Link.server]

theorem acknowledged_shut (link : Link) : (link.shut p).isAcknowledged = link.isAcknowledged := by
  cases link <;> grind [Link.shut, Link.isAcknowledged]

theorem handled_shut {link : Link} (h : ∀ carried, link ≠ .acknowledged p carried) :
    (link.shut p).isHandled = link.isHandled := by
  cases link <;> grind [Link.shut, Link.isHandled]

theorem carried_shut {link : Link} {server : Nat} {carried : Activation}
    (h : link.shut p = .parsed server carried ∨ link.shut p = .acknowledged server carried) :
    link = .parsed server carried ∨ link = .acknowledged server carried := by
  cases link <;> grind [Link.shut]

/-- A process ends with its connections, none of which is acknowledged and not handled. -/
theorem Linked.shut (h : Linked activation s)
    (hpending : ∀ client carried, s.link client ≠ .acknowledged p carried)
    (hwaits : stage.waits = true ∨ (s.stage p).waits = false) (hne : stage ≠ .forwarded) :
    Linked activation ((s.goto p stage).shut p) := by
  have hshut : Linked activation (s.shut p) := by
    constructor
    case served => exact fun client q hserver => h.served client q (server_shut hserver).1
    case carried =>
      exact fun client server carried hlink => h.carried client server carried (carried_shut hlink)
    case unanswered =>
      intro client hclient
      show ((s.link client).shut p).isAcknowledged = false
      rw [acknowledged_shut]
      exact h.unanswered client hclient
    case answered =>
      intro client hclient
      show (s.link client).shut p = .closed true
      rw [h.answered client hclient]
      rfl
    case called =>
      intro client
      show s.calls client = if ((s.link client).shut p).isHandled then _ else _
      rw [handled_shut (hpending client)]
      exact h.called client
  refine hshut.goto (fun client hserver => ?_) (fun hstage => ?_) fun hstage => ?_
  · exact absurd rfl (server_shut hserver).2
  · obtain hwaits | hwaits := hwaits
    · rw [hwaits] at hstage
      cases hstage
    · exact hshut.unanswered p hwaits
  · exact absurd hstage hne

/-- A thread that is not busy serves no connection. -/
theorem Linked.unserved (h : Linked activation s) (hbusy : (s.stage p).busy = none) (client : Nat) :
    (s.link client).server ≠ some p := by
  intro hserver
  have := h.served client p hserver
  rw [hbusy] at this
  cases this

/-- A process whose thread is not busy goes on. -/
theorem Linked.gotoIdle (h : Linked activation s) (hbusy : (s.stage p).busy = none)
    (hwaits : stage.waits = false → (s.link p).isAcknowledged = false)
    (hforwarded : stage = .forwarded → s.link p = .closed true) :
    Linked activation (s.goto p stage) :=
  h.goto (fun client hserver => absurd hserver (h.unserved hbusy client)) hwaits hforwarded

/-- A process whose thread is not busy has acknowledged nothing that it has not handled. -/
theorem Linked.idle (h : Linked activation s) (hbusy : (s.stage p).busy = none) (client : Nat)
    (carried : Activation) : s.link client ≠ .acknowledged p carried := by
  intro hlink
  exact h.unserved hbusy client (by rw [hlink]; rfl)

end Linked

section Steps

variable {activation : Nat → Activation} {parse : List UInt8 → Option Json} {event : Event}

/-- The path stays with its owner. -/
theorem kept_steps (h : Kept s) (hunowned : Unowned s event)
    (hstep : Steps activation parse s event s') : Kept s' := by
  cases hstep with
  | bind _ hpath => exact h.bound hpath
  | quiet _ hquiet => exact h.goto hquiet.owns
  | @closes _ p stage _ hcloses =>
      have hgone : Kept (s.goto p stage) := h.goto hcloses.owns
      exact hgone
  | @connect p server _ =>
      have hconnected : Kept (s.goto p .connected) := h.goto nofun
      exact hconnected
  | send _ _ => exact h
  | sendRead _ _ => exact h
  | forwarded _ _ => exact h.goto nofun
  | refused _ _ => exact h.goto nofun
  | giveUp _ => exact h.goto nofun
  | unremoved _ _ => exact h.goto nofun
  | remove _ hpath =>
      refine h.removed rfl fun q _ hq => ?_
      have hstale : (s.path.all fun q => !(s.stage q).owns) = true := hunowned
      rw [hq] at hstale
      simpa using hstale
  | @accept p client dropping sent hstage _ =>
      have hserving : Kept (s.goto p (.serving dropping (some client))) :=
        h.goto fun _ => by rw [hstage]; rfl
      exact hserving
  | receive _ _ _ => exact h
  | @unread p _ _ dropping _ hstage _ =>
      have hserving : Kept (s.goto p (.serving dropping none)) :=
        h.goto fun _ => by rw [hstage]; rfl
      exact hserving
  | acknowledge _ _ _ => exact h
  | @unacknowledged p _ _ dropping _ hstage _ =>
      have hserving : Kept (s.goto p (.serving dropping none)) :=
        h.goto fun _ => by rw [hstage]; rfl
      exact hserving
  | handle _ _ => exact h
  | @close p _ _ dropping hstage _ =>
      have hserving : Kept (s.goto p (.serving dropping none)) :=
        h.goto fun _ => by rw [hstage]; rfl
      exact hserving
  | unlinkJoined hstage => exact h.unlinked rfl (by rw [hstage]; rfl)
  | unlink hstage => exact h.unlinked rfl (by rw [hstage]; rfl)
  | @kill p =>
      have hkilled : Kept (s.goto p .killed) := h.goto nofun
      exact hkilled

/-- The thread reads the activation of the client that wrote it, or nothing. -/
theorem received_own {client : Nat} {sent : Bool} {carried : Activation}
    (hparse : ∀ p, Parses parse (Activation.codec.toVec (activation p))
      (Activation.codec.encode (activation p)))
    (hempty : parse [] = none) (h : received activation parse client sent = some carried) :
    carried = activation client := by
  unfold received at h
  cases sent with
  | false =>
      have hnone : Activation.codec.fromSlice parse [] = none := by
        rw [Codec.fromSlice, hempty]
        rfl
      simp [hnone] at h
  | true =>
      have hread : Activation.codec.fromSlice parse (Activation.codec.toVec (activation client)) =
          some (activation client) :=
        Codec.from_slice _ ⟨trivial, fun _ _ => trivial⟩ (by decide) (hparse client)
      simp only [if_true, hread] at h
      split at h
      · cases h
      · exact (Option.some.inj h).symm

/-- Stages, connections and calls go on together. -/
theorem linked_steps (hparse : ∀ p, Parses parse (Activation.codec.toVec (activation p))
      (Activation.codec.encode (activation p))) (hempty : parse [] = none)
    (h : Linked activation s) (horderly : Orderly s event)
    (hstep : Steps activation parse s event s') : Linked activation s' := by
  cases hstep with
  | @bind p hstage _ =>
      have hmoved : Linked activation (s.goto p .bound) := by
        obtain hstage | hstage := hstage
        · exact h.move hstage rfl rfl nofun
        · exact h.move hstage rfl rfl nofun
      exact hmoved.onPath
  | quiet _ hquiet => exact h.move rfl hquiet.waits hquiet.busy hquiet.not_forwarded
  | closes _ hcloses =>
      exact h.shut (h.idle hcloses.busy) (.inr hcloses.waits) hcloses.not_forwarded
  | @connect p server hstage =>
      have hfresh := h.unanswered p (by rw [hstage]; rfl)
      have hconnected : Linked activation (s.goto p .connected) :=
        h.gotoIdle (by rw [hstage]; rfl) nofun nofun
      refine hconnected.advance nofun (uncarried nofun nofun) (fun _ => rfl) ?_
        (not_handled hfresh).symm
      rw [goto_stage]
      nofun
  | send hstage hlink =>
      exact h.advance nofun (uncarried nofun nofun) (fun _ => rfl) (by rw [hstage]; nofun)
        (by rw [hlink]; rfl)
  | @sendRead p server hstage hlink =>
      refine h.advance ?_ (uncarried nofun nofun) (fun _ => rfl) (by rw [hstage]; nofun)
        (by rw [hlink]; rfl)
      intro q hq
      exact h.served p q (by rw [hlink]; exact hq)
  | forwarded hstage hlink =>
      exact h.gotoIdle (by rw [hstage]; rfl) nofun fun _ => hlink
  | refused hstage hlink =>
      exact h.gotoIdle (by rw [hstage]; rfl) (fun _ => by rw [hlink]; rfl) nofun
  | giveUp hstage =>
      exact h.gotoIdle (by rw [hstage]; rfl) (fun _ => by simpa [Orderly] using horderly)
        nofun
  | unremoved hstage _ => exact h.move hstage rfl rfl nofun
  | @remove p _ hstage _ =>
      have hmoved : Linked activation (s.goto p .removed) := h.move hstage rfl rfl nofun
      exact hmoved.onPath
  | @accept p client dropping sent hstage hlink =>
      have hgone : Linked activation (s.goto p (.serving dropping (some client))) :=
        h.gotoIdle (by rw [hstage]; rfl) (fun _ => h.unanswered p (by rw [hstage]; rfl)) nofun
      refine hgone.advance ?_ (uncarried nofun nofun) (fun _ => rfl) (hgone.not_forwarded ?_) ?_
      · intro q hq
        obtain rfl : p = q := Option.some.inj hq
        rw [goto_stage]
        rfl
      · show s.link client ≠ _
        rw [hlink]
        nofun
      · show _ = (s.link client).isHandled
        rw [hlink]
        rfl
  | @receive p client server dropping sent carried hstage hlink hreceived =>
      refine h.advance ?_ ?_ (fun _ => rfl) (h.not_forwarded (by rw [hlink]; nofun))
        (by rw [hlink]; rfl)
      · intro q hq
        obtain rfl : p = q := Option.some.inj hq
        rw [hstage]
        rfl
      · intro server other hcarried
        obtain hcarried | hcarried := hcarried
        · cases hcarried
          exact received_own hparse hempty hreceived
        · cases hcarried
  | unread hstage hlink =>
      exact h.release hstage (by rw [hlink]; nofun) (by rw [hlink]; rfl) (by rw [hlink]; rfl)
  | @acknowledge p client server dropping carried hstage hlink hconnected =>
      refine h.advance ?_ ?_ ?_ (by rw [hconnected]; nofun) (by rw [hlink]; rfl)
      · intro q hq
        obtain rfl : p = q := Option.some.inj hq
        rw [hstage]
        rfl
      · intro server other hcarried
        obtain hcarried | hcarried := hcarried
        · cases hcarried
        · cases hcarried
          exact h.carried client _ carried (.inl hlink)
      · intro hwaits
        rw [hconnected] at hwaits
        cases hwaits
  | unacknowledged hstage hlink =>
      exact h.release hstage (by rw [hlink]; nofun) (by rw [hlink]; rfl) (by rw [hlink]; rfl)
  | handle hstage hlink =>
      obtain rfl := h.carried _ _ _ (.inr hlink)
      exact h.call hlink (by rw [hstage]; rfl)
  | close hstage hlink =>
      exact h.release hstage (by rw [hlink]; nofun) (by rw [hlink]; rfl) (by rw [hlink]; rfl)
  | @unlinkJoined p hstage =>
      have hmoved : Linked activation (s.goto p .dropped) := h.move hstage rfl rfl nofun
      exact hmoved.onPath
  | @unlink p hstage =>
      have hmoved : Linked activation (s.goto p .unlinked) := h.move hstage rfl rfl nofun
      exact hmoved.onPath
  | @kill p =>
      refine h.shut (fun client carried hlink => ?_) (.inl rfl) nofun
      have hbusy := h.served client p (by rw [hlink]; rfl)
      have hkill : ((s.stage p).busy.all fun client => !(s.link client).isPending) = true :=
        horderly
      rw [hbusy] at hkill
      simp [hlink, Link.isPending] at hkill

/-- A step takes the path from its owner exactly when it removes the socket of an owner. -/
theorem kept_steps_iff (h : Kept s) (hstep : Steps activation parse s event s') :
    Unowned s event ↔ Kept s' := by
  constructor
  · intro hunowned
    exact kept_steps h hunowned hstep
  · intro hkept
    cases hstep with
    | unremoved _ hpath =>
        show (s.path.all _) = true
        rw [hpath]
        rfl
    | @remove p owner hstage hpath =>
        show (s.path.all _) = true
        rw [hpath]
        by_contra howns
        have hne : owner ≠ p := by
          intro hsame
          have hfree : (!(s.stage p).owns) = true := by rw [hstage]; rfl
          rw [hsame] at howns
          exact howns hfree
        have howner : ((s.goto p .removed).stage owner).owns = true := by
          rw [goto_stage_ne hne]
          simpa using howns
        have hnone := hkept owner howner
        cases hnone
    | quiet hevent _ | closes hevent _ =>
        cases event with
        | remove q => exact absurd rfl (hevent q)
        | _ => trivial
    | _ => trivial

end Steps

/-! ## One instance -/

/-- At most one process has a guard; nobody has removed the socket of an instance whose own removal
is still to come; and `acquire` has returned `Forwarded` exactly where a handler was called for the
activation, which happens once. -/
structure Single (activation : Nat → Activation) (s : State) : Prop where
  one : ∀ p q, (s.stage p).isPrimary = true → (s.stage q).isPrimary = true → p = q
  kept : Kept s
  delivered : ∀ p, (s.stage p).returned = true →
    s.calls p = if s.stage p = .forwarded then [(p, activation p)] else []
  once : ∀ p, (s.calls p).length ≤ 1

theorem owns_of_primary {stage : Stage} (h : stage.isPrimary = true) : stage.owns = true := by
  cases stage with
  | primary | unlistened | serving => rfl
  | _ => cases h

theorem waits_of_returned {stage : Stage} (h : stage.returned = true) (hne : stage ≠ .forwarded) :
    stage.waits = false := by
  cases stage with
  | forwarded => exact absurd rfl hne
  | connected | killed => cases h
  | _ => rfl

theorem single_of_kept {activation : Nat → Activation} {s : State} (hkept : Kept s)
    (hlinked : Linked activation s) : Single activation s := by
  constructor
  case one =>
    intro p q hp hq
    have hpath := hkept p (owns_of_primary hp)
    rw [hkept q (owns_of_primary hq)] at hpath
    exact (Option.some.inj hpath).symm
  case kept => exact hkept
  case delivered =>
    intro p hreturned
    rw [hlinked.called p]
    split
    · rename_i hhandled
      rw [if_pos]
      by_contra hne
      have hnone := hlinked.unanswered p (waits_of_returned hreturned hne)
      rw [not_handled hnone] at hhandled
      cases hhandled
    · rename_i hhandled
      rw [if_neg]
      intro hforwarded
      rw [hlinked.answered p hforwarded] at hhandled
      exact hhandled rfl
  case once =>
    intro p
    rw [hlinked.called p]
    split
    · exact Nat.le_refl 1
    · exact Nat.zero_le 1

/-- The path is always with its owner exactly when no step removes the socket of an owner. -/
theorem path_kept_iff {activation : Nat → Activation} {parse : List UInt8 → Option Json}
    {final : State} (events : List Event)
    (hplay : (instances activation parse).play .start events = some final) :
    (instances activation parse).Always Kept .start events ↔
      (instances activation parse).Throughout Unowned .start events :=
  System.always_iff_throughout (I := fun _ => True) ⟨trivial, kept_start⟩ hplay
    fun _ _ _ _ hkept hnext => ⟨trivial, kept_steps_iff hkept (steps_of_next hnext)⟩

/-- In an orderly run there is one primary instance, which keeps its endpoint and handles what is
forwarded once. -/
theorem single_instance (activation : Nat → Activation) (parse : List UInt8 → Option Json)
    (hparse : ∀ p, Parses parse (Activation.codec.toVec (activation p))
      (Activation.codec.encode (activation p)))
    (hempty : parse [] = none) (events : List Event)
    (h : (instances activation parse).Throughout Orderly .start events) :
    (instances activation parse).Always (Single activation) .start events := by
  have hinvariant := h.always (I := fun s => Kept s ∧ Linked activation s)
    ⟨kept_start, linked_start⟩ fun s event s' hs horderly hnext => by
      have hunowned : Unowned s event := by
        cases event with
        | remove p => exact horderly
        | _ => trivial
      have hstep := steps_of_next hnext
      exact ⟨kept_steps hs.1 hunowned hstep, linked_steps hparse hempty hs.2 horderly hstep⟩
  exact hinvariant.mono fun s hs => single_of_kept hs.1 hs.2

/-! ## Runs of the notes application -/

/-- Every process is started with the same link. -/
def openNote : Activation := ⟨["notes://open"]⟩

/-- The parser of the listener. -/
def noteParser : List UInt8 → Option Json :=
  parserOf (Activation.codec.toVec openNote) (Activation.codec.encode openNote)

/-- The second process is forwarded to the first; the first is killed and the third recovers. -/
def calmRun : List Event :=
  [.bind 0, .secure 0, .listen 0, .bind 1, .connect 1, .send 1, .accept 0 1, .receive 0,
    .acknowledge 0, .handle 0, .close 0, .finish 1, .kill 0, .bind 2, .connect 2, .remove 2,
    .bind 2, .secure 2]

theorem calm_run_single :
    ((instances (fun _ => openNote) noteParser).play .start calmRun).isSome = true ∧
      (instances (fun _ => openNote) noteParser).Always (Single fun _ => openNote) .start
        calmRun :=
  ⟨by decide, single_instance (fun _ => openNote) noteParser (fun _ => parses_known _ _)
    (by decide) calmRun (by decide)⟩

/-- The first process is not listening yet, the second gives up after two seconds. -/
def hastyRun : List Event :=
  [.bind 0, .secure 0, .bind 1, .connect 1, .send 1, .giveUp 1, .remove 1, .bind 1, .secure 1]

/-- Then there are two primary instances. -/
theorem hasty_run_doubles : ¬ (instances (fun _ => openNote) noteParser).Always
    (Single fun _ => openNote) .start hastyRun := by
  intro halways
  obtain ⟨final, hplay, hfirst, hsecond⟩ : ∃ final,
      (instances (fun _ => openNote) noteParser).play .start hastyRun = some final ∧
        (final.stage 0).isPrimary = true ∧ (final.stage 1).isPrimary = true :=
    ⟨_, rfl, by decide, by decide⟩
  have hsingle := halways.last hplay
  exact absurd (hsingle.one 0 1 hfirst hsecond) (by decide)

end PamDesktop.Shell.Lifecycle
