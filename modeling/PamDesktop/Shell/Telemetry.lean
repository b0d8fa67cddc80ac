import Mathlib.Algebra.GroupWithZero.Nat
import Mathlib.Algebra.Ring.Int.Defs
import PamDesktop.Foundations.Serde
import PamDesktop.Foundations.Transition
import PamDesktop.Protocol.Bootstrap
import PamDesktop.Updater.Release

/-!
# Exporting spans

`DesktopOtlpExporter::export`, which any thread may call, and the thread of `export_loop`, cut
where another thread can come in between: a call sends, and counts what it could not send; the
exporter collects a batch, sends it and updates its counters one after the other. Read
`conserves_iff` for what a server has to answer so that no span is counted twice or never.
-/

namespace PamDesktop.Shell.Telemetry

open Foundations Protocol Updater

/-! ## Responses -/

/-- `MAX_RESPONSE_BYTES`. -/
def maxResponseBytes : Nat := 65536

/-- What comes back for a request: an error of the transport or of the status, a body that breaks
off, or a body. -/
inductive Answer where
  | failed
  | unreadable
  | body (bytes : List UInt8)

/-- A member of an object. The last of several with one name stays. -/
def member (name : String) : Json → Option Json
  | .object members => members.reverse.lookup name
  | _ => none

/-- `Value::as_u64`. -/
def asU64 : Json → Option Nat
  | .number value => if 0 ≤ value ∧ value < 2 ^ 64 then some value.toNat else none
  | _ => none

/-- `Value::as_str`, parsed as a `u64`. -/
def parsedText : Json → Option Nat
  | .string text => parseU64 text.toList
  | _ => none

/-- The number at `/partialSuccess/rejectedSpans`, or zero. -/
def rejectedSpans (response : Json) : Nat :=
  (((member "partialSuccess" response).bind (member "rejectedSpans")).bind fun value =>
    (asU64 value).or (parsedText value)).getD 0

/-- `send`, from the answer on: the number of spans that the server says it rejected. -/
def send (parse : List UInt8 → Option Json) : Answer → Option Nat
  | .failed | .unreadable => none
  | .body bytes =>
      if maxResponseBytes < bytes.length then none
      else if bytes = [] then some 0
      else (parse bytes).map rejectedSpans

/-! ## Threads -/

/-- `CommandOutcome`. -/
inductive CommandOutcome where
  | success | handlerFailure | workerFailure | taskFailure
deriving DecidableEq

/-- `TraceParent`. -/
structure TraceParent where
  traceId : String
  parentSpanId : String
  flags : UInt8
deriving DecidableEq

/-- `CommandSpan`. -/
structure CommandSpan where
  command : String
  execution : CommandExecution
  outcome : CommandOutcome
  startUnixNano : Nat
  endUnixNano : Nat
  parent : Option TraceParent
deriving DecidableEq

/-- Where `export_loop` is. `sent` and `rejecting` come before the two updates after a response,
`unsent` and `dropping` before those after an error. -/
inductive Exporter where
  | waiting
  | collecting (batch : List CommandSpan)
  | sending (batch : List CommandSpan)
  | sent (batch : List CommandSpan) (rejected : Nat)
  | rejecting (batch : List CommandSpan) (rejected : Nat)
  | unsent (batch : List CommandSpan)
  | dropping (batch : List CommandSpan)
deriving DecidableEq

/-- The spans of the batch that no counter has yet. -/
def Exporter.held : Exporter → Nat
  | .waiting => 0
  | .collecting batch | .sending batch | .sent batch _ | .unsent batch | .dropping batch =>
      batch.length
  | .rejecting batch rejected => batch.length - (batch.length - rejected)

/-- `OtlpCounters`. -/
structure OtlpCounters where
  exported : Nat := 0
  dropped : Nat := 0
  errors : Nat := 0
  rejected : Nat := 0
deriving DecidableEq

/-- `AtomicU64::fetch_add`. -/
def fetchAdd (counter amount : Nat) : Nat := (counter + amount) % 2 ^ 64

/-- The queue, the calls that have found it full, and the exporter. `submitted` is the number of
calls that are over: the span is in the queue, or it is counted as dropped. -/
structure State where
  queue : List CommandSpan := []
  refused : List CommandSpan := []
  exporter : Exporter := .waiting
  counters : OtlpCounters := {}
  submitted : Nat := 0
deriving DecidableEq

/-- `Config`, as far as the loop reads it. -/
structure Config where
  queueSize : Nat
  batchSize : Nat

/-- What happens next. `deadline` ends the collecting of a batch, `answer` is what `send` gets. -/
inductive Event where
  | exportSpan (span : CommandSpan)
  | countRefused
  | receive
  | deadline
  | answer (answer : Answer)
  | count

/-- A batch that is full is sent. -/
def collected (config : Config) (batch : List CommandSpan) : Exporter :=
  if batch.length < config.batchSize then .collecting batch else .sending batch

/-- The exporter updates its next counter. -/
def countNext (s : State) : Option State :=
  match s.exporter with
  | .sent batch rejected =>
      some { s with
        exporter := .rejecting batch rejected
        counters.exported := fetchAdd s.counters.exported (batch.length - rejected) }
  | .rejecting _ rejected =>
      some { s with
        exporter := .waiting
        counters.rejected := fetchAdd s.counters.rejected rejected }
  | .unsent batch =>
      some { s with
        exporter := .dropping batch
        counters.errors := fetchAdd s.counters.errors 1 }
  | .dropping batch =>
      some { s with
        exporter := .waiting
        counters.dropped := fetchAdd s.counters.dropped batch.length }
  | _ => none

/-- A step of one of the threads. The receiver lives as long as there are senders, so that a full
queue is the only reason to refuse a span. -/
def step (config : Config) (parse : List UInt8 → Option Json) (s : State) : Event → Option State
  | .exportSpan span =>
      if s.queue.length < config.queueSize then
        some { s with queue := s.queue ++ [span], submitted := s.submitted + 1 }
      else some { s with refused := span :: s.refused }
  | .countRefused =>
      match s.refused with
      | [] => none
      | _ :: refused =>
          some { s with
            refused
            counters.dropped := fetchAdd s.counters.dropped 1
            submitted := s.submitted + 1 }
  | .receive =>
      match s.queue, s.exporter with
      | span :: queue, .waiting => some { s with queue, exporter := collected config [span] }
      | span :: queue, .collecting batch =>
          some { s with queue, exporter := collected config (batch ++ [span]) }
      | _, _ => none
  | .deadline =>
      match s.exporter with
      | .collecting batch => some { s with exporter := .sending batch }
      | _ => none
  | .answer answer =>
      match s.exporter with
      | .sending batch =>
          match send parse answer with
          | some rejected => some { s with exporter := .sent batch rejected }
          | none => some { s with exporter := .unsent batch }
      | _ => none
  | .count => countNext s

/-- The exporter and all the threads that call it. -/
def exporting (config : Config) (parse : List UInt8 → Option Json) : System State Event :=
  ⟨step config parse⟩

/-! ## Conservation -/

/-- Every span that has been submitted is in one place. -/
structure State.Conserves (s : State) : Prop where
  accounted : s.submitted = s.counters.exported + s.counters.rejected + s.counters.dropped +
    s.queue.length + s.exporter.held
  exported : s.counters.exported ≤ s.submitted
  rejected : s.counters.rejected ≤ s.submitted
  dropped : s.counters.dropped ≤ s.submitted

/-- No counter overflows, and where the server has rejected spans, they were in the batch. -/
def Honest (s : State) : Event → Prop
  | .countRefused => s.counters.dropped + 1 < 2 ^ 64
  | .count =>
      match s.exporter with
      | .sent batch rejected => s.counters.exported + (batch.length - rejected) < 2 ^ 64
      | .rejecting batch rejected =>
          rejected ≤ batch.length ∧ s.counters.rejected + rejected < 2 ^ 64
      | .dropping batch => s.counters.dropped + batch.length < 2 ^ 64
      | _ => True
  | _ => True

instance : (s : State) → (event : Event) → Decidable (Honest s event)
  | _, .countRefused => inferInstanceAs (Decidable (_ < _))
  | ⟨_, _, .sent _ _, _, _⟩, .count => inferInstanceAs (Decidable (_ < _))
  | ⟨_, _, .rejecting _ _, _, _⟩, .count => inferInstanceAs (Decidable (_ ∧ _))
  | ⟨_, _, .dropping _, _, _⟩, .count => inferInstanceAs (Decidable (_ < _))
  | ⟨_, _, .waiting, _, _⟩, .count | ⟨_, _, .collecting _, _, _⟩, .count
  | ⟨_, _, .sending _, _, _⟩, .count | ⟨_, _, .unsent _, _, _⟩, .count
  | _, .exportSpan _ | _, .receive | _, .deadline | _, .answer _ => .isTrue trivial

theorem parse_u64_lt {text : List Char} {value : Nat} (h : parseU64 text = some value) :
    value < 2 ^ 64 := by
  unfold parseU64 at h
  dsimp only at h
  rw [Option.ite_none_left_eq_some] at h
  obtain ⟨hvalid, heq⟩ := h
  rw [Bool.or_eq_true, not_or, decide_eq_true_iff, Nat.not_le] at hvalid
  exact Option.some.inj heq ▸ hvalid.2

theorem as_u64_lt {json : Json} {value : Nat} (h : asU64 json = some value) : value < 2 ^ 64 := by
  cases json with
  | number number =>
      rw [asU64, Option.ite_none_right_eq_some] at h
      obtain ⟨hrange, heq⟩ := h
      obtain rfl := Option.some.inj heq
      omega
  | null | bool | decimal | string | array | object => cases h

/-- What a server says it rejected fits a counter. -/
theorem rejected_spans_lt (response : Json) : rejectedSpans response < 2 ^ 64 := by
  unfold rejectedSpans
  cases hfound : ((member "partialSuccess" response).bind (member "rejectedSpans")).bind
      fun value => (asU64 value).or (parsedText value) with
  | none => exact Nat.two_pow_pos 64
  | some count =>
      obtain ⟨value, -, hvalue⟩ := Option.bind_eq_some_iff.mp hfound
      rw [Option.getD_some]
      obtain hnumber | ⟨-, htext⟩ := Option.or_eq_some_iff.mp hvalue
      · exact as_u64_lt hnumber
      · cases value with
        | string text => exact parse_u64_lt htext
        | null | bool | number | decimal | array | object => cases htext

theorem send_lt {parse : List UInt8 → Option Json} {answer : Answer} {rejected : Nat}
    (h : send parse answer = some rejected) : rejected < 2 ^ 64 := by
  unfold send at h
  split at h
  · cases h
  · cases h
  · split at h
    · cases h
    · split at h
      · cases h
        exact Nat.two_pow_pos 64
      · obtain ⟨response, -, rfl⟩ := Option.map_eq_some_iff.mp h
        exact rejected_spans_lt response

/-- A counter counts unless it overflows. -/
theorem fetch_add_iff {counter amount : Nat} :
    fetchAdd counter amount = counter + amount ↔ counter + amount < 2 ^ 64 :=
  Nat.mod_eq_iff_lt (Nat.two_pow_pos 64).ne'

/-- Rejected spans that were not in the batch are never accounted for. -/
theorem fetch_add_rejected_iff {counter rejected size : Nat} (hbound : rejected < 2 ^ 64) :
    fetchAdd counter rejected = counter + (size - (size - rejected)) ↔
      rejected ≤ size ∧ counter + rejected < 2 ^ 64 := by
  by_cases hsize : rejected ≤ size
  · have hheld : size - (size - rejected) = rejected := by omega
    rw [hheld, fetch_add_iff]
    exact ⟨fun h => ⟨hsize, h⟩, And.right⟩
  · refine iff_of_false (fun h => ?_) fun h => hsize h.1
    unfold fetchAdd at h
    omega

/-- The counters are below the number of spans wherever every span is accounted for. -/
theorem conserves_iff_accounted {s : State} : s.Conserves ↔
    s.submitted = s.counters.exported + s.counters.rejected + s.counters.dropped +
      s.queue.length + s.exporter.held :=
  ⟨State.Conserves.accounted, fun h => ⟨h, by omega, by omega, by omega⟩⟩

/-- What the exporter has been told fits a counter. -/
def State.Bounded (s : State) : Prop :=
  match s.exporter with
  | .sent _ rejected | .rejecting _ rejected => rejected < 2 ^ 64
  | _ => True

theorem collected_held (config : Config) (batch : List CommandSpan) :
    (collected config batch).held = batch.length := by
  unfold collected
  split <;> rfl

theorem collected_bounded (config : Config) (batch : List CommandSpan)
    {queue refused : List CommandSpan} {counters : OtlpCounters} {submitted : Nat} :
    State.Bounded ⟨queue, refused, collected config batch, counters, submitted⟩ := by
  unfold collected
  split <;> exact trivial

variable {config : Config} {parse : List UInt8 → Option Json}

/-- An update of the exporter keeps the accounts exactly if it is honest. -/
theorem count_conserves {s s' : State} (hbounded : s.Bounded) (hs : s.Conserves)
    (h : countNext s = some s') : s'.Bounded ∧ (Honest s .count ↔ s'.Conserves) := by
  have haccounted := hs.accounted
  obtain ⟨queue, refused, exporter, counters, submitted⟩ := s
  rw [conserves_iff_accounted]
  cases exporter with
  | waiting | collecting | sending => cases h
  | sent batch rejected =>
      cases h
      refine ⟨hbounded, fetch_add_iff.symm.trans ?_⟩
      simp only [Exporter.held] at haccounted ⊢
      omega
  | rejecting batch rejected =>
      cases h
      refine ⟨trivial, (fetch_add_rejected_iff hbounded).symm.trans ?_⟩
      simp only [Exporter.held] at haccounted ⊢
      omega
  | unsent batch =>
      cases h
      exact ⟨trivial, iff_of_true trivial haccounted⟩
  | dropping batch =>
      cases h
      refine ⟨trivial, fetch_add_iff.symm.trans ?_⟩
      simp only [Exporter.held] at haccounted ⊢
      omega

/-- A step keeps the accounts exactly if it is honest. -/
theorem step_conserves {s s' : State} {event : Event} (hbounded : s.Bounded) (hs : s.Conserves)
    (h : step config parse s event = some s') :
    s'.Bounded ∧ (Honest s event ↔ s'.Conserves) := by
  have haccounted := hs.accounted
  cases event with
  | exportSpan span =>
      dsimp only [step] at h
      split at h
      · cases h
        refine ⟨hbounded, iff_of_true trivial (conserves_iff_accounted.mpr ?_)⟩
        simp only [List.length_append, List.length_singleton]
        omega
      · cases h
        exact ⟨hbounded, iff_of_true trivial (conserves_iff_accounted.mpr haccounted)⟩
  | countRefused =>
      dsimp only [step] at h
      split at h
      · cases h
      · cases h
        refine ⟨hbounded, ?_⟩
        rw [conserves_iff_accounted]
        refine fetch_add_iff.symm.trans ?_
        dsimp only
        omega
  | receive =>
      obtain ⟨queue, refused, exporter, counters, submitted⟩ := s
      cases queue with
      | nil => cases exporter <;> cases h
      | cons span queue =>
          cases exporter with
          | waiting =>
              cases h
              refine ⟨collected_bounded config _, iff_of_true trivial ?_⟩
              simp only [List.length_cons, Exporter.held] at haccounted
              rw [conserves_iff_accounted]
              dsimp only
              rw [collected_held, List.length_singleton]
              omega
          | collecting batch =>
              cases h
              refine ⟨collected_bounded config _, iff_of_true trivial ?_⟩
              simp only [List.length_cons, Exporter.held] at haccounted
              rw [conserves_iff_accounted]
              dsimp only
              rw [collected_held, List.length_append, List.length_singleton]
              omega
          | sending | sent | rejecting | unsent | dropping => cases h
  | deadline =>
      obtain ⟨queue, refused, exporter, counters, submitted⟩ := s
      cases exporter with
      | collecting batch =>
          cases h
          exact ⟨trivial, iff_of_true trivial (conserves_iff_accounted.mpr haccounted)⟩
      | waiting | sending | sent | rejecting | unsent | dropping => cases h
  | answer answer =>
      obtain ⟨queue, refused, exporter, counters, submitted⟩ := s
      cases exporter with
      | sending batch =>
          dsimp only [step] at h
          split at h
          · rename_i hsend
            cases h
            exact ⟨send_lt hsend, iff_of_true trivial (conserves_iff_accounted.mpr haccounted)⟩
          · cases h
            exact ⟨trivial, iff_of_true trivial (conserves_iff_accounted.mpr haccounted)⟩
      | waiting | collecting | sent | rejecting | unsent | dropping => cases h
  | count => exact count_conserves hbounded hs h

/-- Every span is accounted for in every state of a run exactly if no counter overflows and the
server rejects no more spans than it was sent. -/
theorem conserves_iff (config : Config) (parse : List UInt8 → Option Json) {events : List Event}
    {final : State} (hplay : (exporting config parse).play {} events = some final) :
    (exporting config parse).Always State.Conserves {} events ↔
      (exporting config parse).Throughout Honest {} events :=
  System.always_iff_throughout (I := State.Bounded)
    ⟨trivial, conserves_iff_accounted.mpr rfl⟩ hplay
    fun _ _ _ hbounded hs hstep => step_conserves hbounded hs hstep

/-! ## A hostile server -/

/-- A span of a command. -/
def refreshSpan : CommandSpan :=
  ⟨"catalog.refresh", .parallel, .success, 1, 2, none⟩

/-- A response that says how many spans were rejected. -/
def partialSuccess (rejected : String) : Json :=
  .object [("partialSuccess", .object [("rejectedSpans", .string rejected)])]

/-- One span is sent, and the server says how many were rejected. -/
def oneSpan (rejected : String) : List Event :=
  [.exportSpan refreshSpan, .receive, .answer (.body (partialSuccess rejected).bytes), .count,
    .count]

/-- The parser of one response. -/
def parserFor (rejected : String) : List UInt8 → Option Json :=
  parserOf (partialSuccess rejected).bytes (partialSuccess rejected)

/-- A server that rejects the only span keeps the accounts. -/
theorem rejected_span_conserved :
    (exporting ⟨1, 1⟩ (parserFor "1")).Always State.Conserves {} (oneSpan "1") := by
  have hplay : (exporting ⟨1, 1⟩ (parserFor "1")).play {} (oneSpan "1") =
      some { counters.rejected := 1, submitted := 1 } := by decide +kernel
  exact (conserves_iff ⟨1, 1⟩ (parserFor "1") hplay).mpr (by decide +kernel)

/-- A server that rejects two spans where there was one makes more of them than were submitted. -/
theorem two_of_one_rejected :
    (exporting ⟨1, 1⟩ (parserFor "2")).play {} (oneSpan "2") =
        some { counters.rejected := 2, submitted := 1 } ∧
      ¬ (exporting ⟨1, 1⟩ (parserFor "2")).Always State.Conserves {} (oneSpan "2") := by
  have hplay : (exporting ⟨1, 1⟩ (parserFor "2")).play {} (oneSpan "2") =
      some { counters.rejected := 2, submitted := 1 } := by decide +kernel
  refine ⟨hplay, fun halways => ?_⟩
  exact absurd (halways.last hplay).rejected (by decide)

end PamDesktop.Shell.Telemetry
