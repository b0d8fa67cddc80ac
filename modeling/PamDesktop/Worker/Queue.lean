import PamDesktop.Foundations.Transition
import PamDesktop.Worker.Refusals

/-!
# Requests that wait for the primary worker

Requests queue for the lock of the supervisor while their tokens can be cancelled. The request that
obtains the lock is written before its token is asked for the first time, so
`cancelled_requests_clean_iff` holds only of runs in which no such request obtains it cancelled.
-/

namespace PamDesktop.Worker

open Foundations Protocol

variable {Value σ : Type}

/-- A request that `execute_request` has made for the stateful lane. -/
structure Ticket (Value : Type) where
  number : Nat
  command : WorkerCommand Value
  timeout : Nat
  token : Nat

/-- What has become of a request: whether its token was cancelled when it obtained the supervisor,
the supervisor before and after, the result and the calls. -/
structure Served (Value : Type) where
  number : Nat
  cancelled : Bool
  before : WorkerSupervisor
  after : WorkerSupervisor
  result : Except WorkerRequestError (ResponseEnvelope Value)
  calls : List (PipeCall (RequestEnvelope Value))

/-- The supervisor, the world around it, the requests that wait for its lock and those served. -/
structure Queue (σ Value : Type) where
  supervisor : WorkerSupervisor
  world : σ
  waiting : List (Ticket Value)
  served : List (Served Value)

/-- A request comes, a token is cancelled, or a waiting request obtains the lock. -/
inductive QueueEvent (Value : Type) where
  | arrive (ticket : Ticket Value)
  | cancel (token : Nat)
  | obtain (index : Nat)

/-- Serve a request that has obtained the lock. -/
def Queue.serve (M : Machine (workerPipes Value) σ) (host : WorkerHost Value)
    (queue : Queue σ Value) (ticket : Ticket Value) : Option (Served Value × σ) :=
  let request := queue.supervisor.request host ticket.number ticket.command ticket.timeout
    (.shared ticket.token)
  match M.run request queue.world with
  | (.ok (result, after), world) =>
      some (⟨ticket.number, (M.perform (.isCancelled ticket.token) queue.world).1,
        queue.supervisor, after, result, M.calls request queue.world⟩, world)
  | (.error _, _) => none

/-- The queue as a system. `cancel` is what a cancellation does to the world. -/
def queueSystem (M : Machine (workerPipes Value) σ) (cancel : Nat → σ → σ)
    (host : WorkerHost Value) : System (Queue σ Value) (QueueEvent Value) where
  next queue
    | .arrive ticket => some { queue with waiting := queue.waiting ++ [ticket] }
    | .cancel token => some { queue with world := cancel token queue.world }
    | .obtain index =>
        match queue.waiting[index]? with
        | none => none
        | some ticket =>
            (queue.serve M host ticket).map fun outcome =>
              ⟨outcome.1.after, outcome.2, queue.waiting.eraseIdx index,
                queue.served ++ [outcome.1]⟩

/-- The request is reported cancelled, its command is written to no process, and the worker and its
generation are what they were. -/
structure Served.Clean (served : Served Value) : Prop where
  reported : served.result = .error .cancelled
  unwritten : ∀ pid request line, .write pid (.request served.number) request line ∉ served.calls
  generation : served.after.generation = served.before.generation
  kept : Kept (served.before.worker.map (·.pid)) (served.after.worker.map (·.pid)) served.calls

/-- Every request that obtained the supervisor with a cancelled token was handled cleanly. -/
def CancelledClean (queue : Queue σ Value) : Prop :=
  ∀ served ∈ queue.served, served.cancelled = true → served.Clean

/-- The step lets no request with a cancelled token obtain the supervisor. -/
def NotCancelledYet (M : Machine (workerPipes Value) σ) (queue : Queue σ Value)
    (event : QueueEvent Value) : Prop :=
  ∀ index ticket, event = .obtain index → queue.waiting[index]? = some ticket →
    (M.perform (.isCancelled ticket.token) queue.world).1 = false

/-! ## What a cancelled request has done -/

section Cancelled

variable {M : Machine (workerPipes Value) σ} {host : WorkerHost Value}

/-- The size check reports no cancellation. -/
theorem frame_not_cancelled (encoded : List UInt8) :
    frameWorkerRequest encoded ≠ .error .cancelled := by
  rw [frameWorkerRequest, frame]
  split
  · intro h
    cases h
  · intro h
    cases h

/-- A request fails at once, but not as cancelled, or it is written first. -/
theorem exchange_first (host : WorkerHost Value) (pid : Pid) (nextId : UInt64) (purpose : Purpose)
    (request : UInt64 → RequestEnvelope Value) (timeout : Nat) (token : CancellationToken) :
    (∃ error, error ≠ .cancelled ∧
      exchange (workerDialect host) pid nextId purpose request timeout token = .fail error) ∨
    ∃ line next, exchange (workerDialect host) pid nextId purpose request timeout token =
      .call (.write pid purpose (request nextId) line) next := by
  unfold exchange
  split
  · refine .inl ⟨_, ?_, rfl⟩
    intro h
    cases h
  · split
    · refine .inl ⟨_, ?_, rfl⟩
      intro h
      cases h
    · split
      · rename_i error herror
        refine .inl ⟨error, ?_, rfl⟩
        intro heq
        rw [heq] at herror
        exact frame_not_cancelled _ herror
      · exact .inr ⟨_, _, rfl⟩

/-- A request to the supervisor that ends cancelled has been written. -/
theorem request_worker_cancelled {supervisor after : WorkerSupervisor} {client : WorkerClient}
    {number timeout : Nat} {command : WorkerCommand Value} {token : CancellationToken} {s s' : σ}
    (h : M.run (supervisor.requestWorker host client number command timeout token) s =
      (.ok (.error .cancelled, after), s')) :
    ∃ pid request line, PipeCall.write pid (.request number) request line ∈
      M.calls (supervisor.requestWorker host client number command timeout token) s := by
  obtain ⟨error, hne, hexchange⟩ | ⟨line, next, hexchange⟩ :=
    exchange_first host client.pid client.nextId (.request number) command.envelope timeout token
  · rw [request_worker_fails supervisor hexchange, Machine.run_bind] at h
    split at h
    · cases h
      exact absurd rfl hne
    · cases h
  · unfold WorkerSupervisor.requestWorker WorkerClient.request
    rw [hexchange]
    exact ⟨_, _, line, List.mem_cons_self⟩

theorem request_cancelled {supervisor after : WorkerSupervisor} {number timeout : Nat}
    {command : WorkerCommand Value} {token : CancellationToken} {s s' : σ}
    (h : M.run (supervisor.request host number command timeout token) s =
      (.ok (.error .cancelled, after), s')) :
    ∃ pid request line, PipeCall.write pid (.request number) request line ∈
      M.calls (supervisor.request host number command timeout token) s := by
  unfold WorkerSupervisor.request at h ⊢
  cases hworker : supervisor.worker with
  | some client =>
      simp only [hworker] at h ⊢
      exact request_worker_cancelled h
  | none =>
      simp only [hworker, Program.bind_eq, Machine.run_bind] at h
      rw [Program.bind_eq, Machine.calls_bind]
      cases hrestart : M.run (supervisor.restart host) s with
      | mk outcome s'' =>
          rw [hrestart] at h
          cases outcome with
          | error never => cases never
          | ok restarted =>
              obtain ⟨result, supervisor'⟩ := restarted
              cases result with
              | error error => cases h
              | ok bootstrap =>
                  cases hstarted : supervisor'.worker with
                  | none =>
                      simp only [hstarted] at h
                      cases h
                  | some client =>
                      simp only [hstarted] at h ⊢
                      obtain ⟨pid, request, line, hwrite⟩ := request_worker_cancelled h
                      exact ⟨pid, request, line, List.mem_append_right _ hwrite⟩

/-- A request that obtains the lock is served. -/
theorem serve_some (M : Machine (workerPipes Value) σ) (host : WorkerHost Value)
    (queue : Queue σ Value) (ticket : Ticket Value) :
    ∃ outcome, queue.serve M host ticket = some outcome := by
  unfold Queue.serve
  dsimp only
  split
  · exact ⟨_, rfl⟩
  · rename_i never _ _
    cases never

/-- So no request is handled cleanly, whatever its token said. -/
theorem serve_not_clean {queue : Queue σ Value} {ticket : Ticket Value} {served : Served Value}
    {world : σ} (h : queue.serve M host ticket = some (served, world)) : ¬served.Clean := by
  intro hclean
  unfold Queue.serve at h
  dsimp only at h
  split at h
  · rename_i result after world' hrun
    cases h
    have hreported : result = .error .cancelled := hclean.reported
    rw [hreported] at hrun
    obtain ⟨pid, request, line, hwrite⟩ := request_cancelled hrun
    exact hclean.unwritten pid request line hwrite
  · cases h

/-- What a served request remembers of its token. -/
theorem serve_cancelled {queue : Queue σ Value} {ticket : Ticket Value} {served : Served Value}
    {world : σ} (h : queue.serve M host ticket = some (served, world)) :
    served.cancelled = (M.perform (.isCancelled ticket.token) queue.world).1 := by
  unfold Queue.serve at h
  dsimp only at h
  split at h
  · cases h
    rfl
  · cases h

end Cancelled

/-! ## Any interleaving -/

section Queue

variable {M : Machine (workerPipes Value) σ} {cancel : Nat → σ → σ} {host : WorkerHost Value}

/-- What one step does to the requests served. -/
theorem queue_step {queue queue' : Queue σ Value} {event : QueueEvent Value}
    (h : (queueSystem M cancel host).next queue event = some queue') :
    (queue'.served = queue.served ∧ ∀ index, event ≠ .obtain index) ∨
    ∃ index ticket served world, event = .obtain index ∧ queue.waiting[index]? = some ticket ∧
      queue.serve M host ticket = some (served, world) ∧
      queue'.served = queue.served ++ [served] := by
  cases event with
  | arrive ticket =>
      cases h
      exact .inl ⟨rfl, fun _ heq => by cases heq⟩
  | cancel token =>
      cases h
      exact .inl ⟨rfl, fun _ heq => by cases heq⟩
  | obtain index =>
      simp only [queueSystem] at h
      split at h
      · cases h
      · rename_i ticket hticket
        obtain ⟨⟨served, world⟩, hserve, rfl⟩ := Option.map_eq_some_iff.mp h
        exact .inr ⟨index, ticket, served, world, rfl, hticket, hserve, rfl⟩

/-- Exactly the steps in which a cancelled request obtains the supervisor break the property. -/
theorem queue_step_iff {queue queue' : Queue σ Value} {event : QueueEvent Value}
    (hclean : CancelledClean queue)
    (h : (queueSystem M cancel host).next queue event = some queue') :
    NotCancelledYet M queue event ↔ CancelledClean queue' := by
  obtain ⟨hserved, hother⟩ | ⟨index, ticket, served, world, rfl, hticket, hserve, hserved⟩ :=
    queue_step h
  · unfold CancelledClean
    rw [hserved]
    refine ⟨fun _ => hclean, fun _ index ticket heq => ?_⟩
    exact absurd heq (hother index)
  · have hcancelled := serve_cancelled hserve
    constructor
    · intro hnot entry hentry hentryCancelled
      rw [hserved] at hentry
      rcases List.mem_append.mp hentry with hentry | hentry
      · exact hclean entry hentry hentryCancelled
      · obtain rfl := List.mem_singleton.mp hentry
        rw [hcancelled, hnot index ticket rfl hticket] at hentryCancelled
        cases hentryCancelled
    · intro hafter index' ticket' heq hticket'
      cases heq
      rw [hticket] at hticket'
      cases hticket'
      apply Bool.eq_false_iff.mpr
      intro htrue
      refine serve_not_clean hserve (hafter served ?_ (hcancelled.trans htrue))
      rw [hserved]
      exact List.mem_append_right _ (List.mem_singleton_self _)

/-- In a run all cancelled requests are handled cleanly exactly when none of them obtains the
supervisor. -/
theorem cancelled_requests_clean_iff (M : Machine (workerPipes Value) σ) (cancel : Nat → σ → σ)
    (host : WorkerHost Value) (start final : Queue σ Value) (events : List (QueueEvent Value))
    (hstart : start.served = [])
    (hplay : (queueSystem M cancel host).play start events = some final) :
    (queueSystem M cancel host).Always CancelledClean start events ↔
      (queueSystem M cancel host).Throughout (NotCancelledYet M) start events := by
  have hclean : CancelledClean start := by
    intro served hserved
    rw [hstart] at hserved
    cases hserved
  refine System.always_iff_throughout (I := fun _ => True) ⟨trivial, hclean⟩ hplay ?_
  intro queue event queue' _ hqueue hnext
  exact ⟨trivial, queue_step_iff hqueue hnext⟩

end Queue

/-! ## A note that need not be saved any more -/

/-- `CancellationToken::cancel`. -/
def cancelToken (token : Nat) (world : World (RequestEnvelope NotesValue)
    (ResponseEnvelope NotesValue)) : World (RequestEnvelope NotesValue)
      (ResponseEnvelope NotesValue) :=
  { world with tokens := fun other => if other = token then true else world.tokens other }

/-- A request to save a note, with the token 7. -/
def notesTicket : Ticket NotesValue := ⟨0, notesSave, 5000, 7⟩

/-- Nobody waits for the worker yet. -/
def notesQueue : Queue (World (RequestEnvelope NotesValue) (ResponseEnvelope NotesValue))
    NotesValue :=
  ⟨notesSupervisor 2, { notesWorld with spawned := 1 }, [], []⟩

/-- The request waits, and it may have been cancelled meanwhile. -/
theorem notes_obtains (world : World (RequestEnvelope NotesValue) (ResponseEnvelope NotesValue)) :
    ∃ final, (queueSystem World.machine cancelToken notesWorkerHost).next
      { notesQueue with world := world, waiting := [notesTicket] } (.obtain 0) = some final := by
  obtain ⟨outcome, houtcome⟩ := serve_some World.machine notesWorkerHost
    { notesQueue with world := world, waiting := [notesTicket] } notesTicket
  simp only [queueSystem, List.getElem?_cons_zero, houtcome]
  exact ⟨_, rfl⟩

/-- A request that nobody cancels breaks nothing. -/
theorem notes_uncancelled_clean :
    (queueSystem World.machine cancelToken notesWorkerHost).Always CancelledClean notesQueue
      [.arrive notesTicket, .obtain 0] := by
  obtain ⟨final, hfinal⟩ := notes_obtains notesQueue.world
  have hplay : (queueSystem World.machine cancelToken notesWorkerHost).play notesQueue
      [.arrive notesTicket, .obtain 0] = some final := by
    have harrive : (queueSystem World.machine cancelToken notesWorkerHost).next notesQueue
        (.arrive notesTicket) = some { notesQueue with waiting := [notesTicket] } := rfl
    rw [System.play, harrive, Option.bind_some, System.play, hfinal]
    rfl
  refine (cancelled_requests_clean_iff World.machine cancelToken notesWorkerHost notesQueue final _
    rfl hplay).mpr ⟨?_, ?_⟩
  · intro index ticket heq
    cases heq
  · intro queue hnext
    cases hnext
    refine ⟨?_, fun _ _ => trivial⟩
    intro index ticket heq hticket
    cases heq
    cases hticket
    rfl

/-- A request that was cancelled while it waited is written to the worker all the same. -/
theorem notes_cancelled_not_clean :
    ∃ final, (queueSystem World.machine cancelToken notesWorkerHost).play notesQueue
        [.arrive notesTicket, .cancel 7, .obtain 0] = some final ∧
      ¬(queueSystem World.machine cancelToken notesWorkerHost).Always CancelledClean notesQueue
        [.arrive notesTicket, .cancel 7, .obtain 0] := by
  obtain ⟨final, hfinal⟩ := notes_obtains (cancelToken 7 notesQueue.world)
  have hplay : (queueSystem World.machine cancelToken notesWorkerHost).play notesQueue
      [.arrive notesTicket, .cancel 7, .obtain 0] = some final := by
    have harrive : (queueSystem World.machine cancelToken notesWorkerHost).next notesQueue
        (.arrive notesTicket) = some { notesQueue with waiting := [notesTicket] } := rfl
    have hcancel : (queueSystem World.machine cancelToken notesWorkerHost).next
        { notesQueue with waiting := [notesTicket] } (.cancel 7) =
          some { notesQueue with
            world := cancelToken 7 notesQueue.world, waiting := [notesTicket] } := rfl
    rw [System.play, harrive, Option.bind_some, System.play, hcancel, Option.bind_some, System.play,
      hfinal]
    rfl
  refine ⟨final, hplay, ?_⟩
  intro halways
  have hclean : CancelledClean ({ notesQueue with
      world := cancelToken 7 notesQueue.world, waiting := [notesTicket] } :
        Queue _ NotesValue) := by
    intro served hserved
    cases hserved
  have hnot := (queue_step_iff hclean hfinal).mpr (halways.last hplay) 0 notesTicket rfl rfl
  cases hnot

end PamDesktop.Worker
