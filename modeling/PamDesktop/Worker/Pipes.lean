import PamDesktop.Worker.Client

/-!
# Replies and the lines they answer

A world of worker processes around `WorkerSupervisor`: the lines on their inputs, the answers on
their outputs, the channels of the reader threads, the tokens and every refusal of the operating
system. Between two calls of the host the world drifts as it likes, as long as a worker answers a
line at most once. `responses_answer_own_lines` is what holds after any sequence of requests.
-/

namespace PamDesktop.Worker

open Foundations Protocol

/-- A line on the input of a process. -/
structure Line (Request : Type) where
  purpose : Purpose
  request : Request

/-- What a reader thread hands over: an answer with the line that it answers, or an error. -/
inductive Item (Request Response : Type) where
  | answer (line : Line Request) (response : Response)
  | failure (message : String)

/-- A worker process with its pipes and its reader thread. -/
structure Process (Request Response : Type) where
  alive : Bool
  input : List (Line Request)
  reading : Option (Line Request)
  output : List (Line Request × Response)
  channel : List (Item Request Response)
  closed : Bool

variable {Request Response : Type}

/-- A process that has just been started. -/
def Process.started : Process Request Response where
  alive := true
  input := []
  reading := none
  output := []
  channel := []
  closed := false

/-- What goes on in a process and its reader thread. A worker may ignore a line, die at any time
and print anything, and the reader may fail on what it prints. -/
inductive Process.Drift : Process Request Response → Process Request Response → Prop where
  | read (process line rest) : process.alive = true → process.reading = none →
      process.input = line :: rest →
      Drift process { process with input := rest, reading := some line }
  | answer (process line response) : process.alive = true → process.reading = some line →
      Drift process { process with
        reading := none, output := process.output ++ [(line, response)] }
  | ignore (process line) : process.alive = true → process.reading = some line →
      Drift process { process with reading := none }
  | forward (process line response rest) : process.closed = false →
      process.output = (line, response) :: rest →
      Drift process { process with
        output := rest, channel := process.channel ++ [.answer line response] }
  | reject (process line response rest message) : process.closed = false →
      process.output = (line, response) :: rest →
      Drift process { process with
        output := rest, channel := process.channel ++ [.failure message] }
  | failure (process message) : process.closed = false →
      Drift process { process with channel := process.channel ++ [.failure message] }
  | close (process) : Drift process { process with closed := true }
  | exit (process) : Drift process { process with alive := false }

/-- The processes, the tokens, what the operating system is going to answer and two records: of
the lines written and of the items received. `writeRefusal` says whether the refused line still
reaches the process. -/
structure World (Request Response : Type) where
  processes : Pid → Process Request Response
  spawned : Nat
  tokens : Nat → Bool
  timeUp : Bool
  spawnRefusal : Option String
  writeRefusal : Option (String × Bool)
  written : List (Pid × Line Request)
  received : List (Pid × Item Request Response)

namespace World

/-- Put a process in the place of another. -/
def update (world : World Request Response) (pid : Pid) (process : Process Request Response) :
    World Request Response :=
  { world with processes := fun other => if other = pid then process else world.processes other }

@[simp] theorem update_processes (world : World Request Response) (pid : Pid)
    (process : Process Request Response) : (world.update pid process).processes pid = process := by
  simp [update]

@[simp] theorem update_update (world : World Request Response) (pid : Pid)
    (process process' : Process Request Response) :
    (world.update pid process).update pid process' = world.update pid process' := by
  simp only [update, World.mk.injEq, and_true]
  funext other
  split <;> rfl

/-- What changes while the host is busy with something else. -/
inductive Drift : World Request Response → World Request Response → Prop where
  | process (world pid process) : (world.processes pid).Drift process →
      Drift world (world.update pid process)
  | cancel (world token) :
      Drift world { world with
        tokens := fun other => if other = token then true else world.tokens other }
  | outlook (world timeUp spawnRefusal writeRefusal) :
      Drift world { world with
        timeUp := timeUp, spawnRefusal := spawnRefusal, writeRefusal := writeRefusal }

/-- Start a process. -/
def spawn (world : World Request Response) : Except String Pid × World Request Response :=
  match world.spawnRefusal with
  | some error => (.error error, world)
  | none =>
      (.ok world.spawned,
        { world.update world.spawned .started with spawned := world.spawned + 1 })

theorem spawn_refused {world : World Request Response} {error : String}
    (h : world.spawnRefusal = some error) : world.spawn = (.error error, world) := by
  simp only [spawn, h]

theorem spawn_started {world : World Request Response} (h : world.spawnRefusal = none) :
    world.spawn = (.ok world.spawned,
      { world.update world.spawned .started with spawned := world.spawned + 1 }) := by
  simp only [spawn, h]

/-- Put a line on the input of a process, where it may not arrive. -/
def send (world : World Request Response) (pid : Pid) (line : Line Request) (arrives : Bool) :
    World Request Response :=
  let process := world.processes pid
  let input := if arrives then process.input ++ [line] else process.input
  { world.update pid { process with input := input } with
    written := world.written ++ [(pid, line)] }

/-- Write a line to a process. -/
def write (world : World Request Response) (pid : Pid) (line : Line Request) :
    Except String Unit × World Request Response :=
  match world.writeRefusal with
  | none => (.ok (), world.send pid line true)
  | some (error, arrives) => (.error error, world.send pid line arrives)

theorem write_sent {world : World Request Response} (pid : Pid) (line : Line Request)
    (h : world.writeRefusal = none) : world.write pid line = (.ok (), world.send pid line true) := by
  simp only [write, h]

theorem write_refused {world : World Request Response} (pid : Pid) (line : Line Request)
    {error : String} {arrives : Bool} (h : world.writeRefusal = some (error, arrives)) :
    world.write pid line = (.error error, world.send pid line arrives) := by
  simp only [write, h]

/-- Take the first item of a channel, now that the time for a turn is over. -/
def receive (world : World Request Response) (pid : Pid) :
    Poll Response × World Request Response :=
  match (world.processes pid).channel with
  | [] => (if (world.processes pid).closed then .disconnected else .timeout, world)
  | item :: rest =>
      (match item with
        | .answer _ response => .response response
        | .failure message => .failed message,
        { world.update pid { world.processes pid with channel := rest } with
          received := world.received ++ [(pid, item)] })

/-- Kill a process and wait for it and for its reader thread. -/
def stop (world : World Request Response) (pid : Pid) : World Request Response :=
  world.update pid { world.processes pid with alive := false, closed := true }

/-- The calls of a client. -/
def perform : (call : PipeCall Request) → World Request Response →
    (pipes Request Response).Reply call × World Request Response
  | .spawn, world => world.spawn
  | .write pid purpose request _, world => world.write pid ⟨purpose, request⟩
  | .isCancelled token, world => (world.tokens token, world)
  | .deadlinePassed, world => (world.timeUp, world)
  | .receive pid, world => world.receive pid
  | .stop pid, world => ((), world.stop pid)

/-- Programs run in a world that drifts. -/
def machine : Machine (pipes Request Response) (World Request Response) where
  perform := perform
  partway _ := Drift

end World

/-! ## What is outstanding -/

/-- The line that an item answers. -/
def Item.line? : Item Request Response → Option (Line Request)
  | .answer line _ => some line
  | .failure _ => none

/-- The lines that may still be answered to the host, or whose answer it has not taken. -/
def Process.outstanding (process : Process Request Response) : List (Line Request) :=
  process.channel.filterMap Item.line? ++ process.output.map Prod.fst ++
    process.reading.toList ++ process.input

/-- A process left to itself gets no new line. -/
theorem Process.Drift.outstanding_sublist {process process' : Process Request Response}
    (h : process.Drift process') : process'.outstanding.Sublist process.outstanding := by
  unfold Process.outstanding
  cases h with
  | read line rest _ hreading hinput => simp [hreading, hinput]
  | answer line response _ hreading => simp [hreading]
  | ignore line _ hreading => simp [hreading]
  | forward line response rest _ houtput => simp [houtput, Item.line?]
  | reject line response rest message _ houtput => simp [houtput, Item.line?]
  | failure message _ => simp [Item.line?]
  | close => exact List.Sublist.refl _
  | exit => exact List.Sublist.refl _

/-- No request is outstanding in the process. -/
def World.Quiet (world : World Request Response) (pid : Pid) : Prop :=
  (world.processes pid).outstanding = []

/-- How many lines have been written for a request. -/
def World.linesOf (world : World Request Response) (number : Nat) : Nat :=
  world.written.countP fun entry => entry.2.purpose == .request number

/-- The lines written for each request are at most so many. -/
def World.Bounded (bound : Nat → Nat) (world : World Request Response) : Prop :=
  ∀ number, world.linesOf number ≤ bound number

/-- Nothing but these lines is outstanding in the process, and the number of lines is bounded. -/
structure World.Serving (pid : Pid) (allowed : List (Line Request)) (bound : Nat → Nat)
    (world : World Request Response) : Prop where
  outstanding : (world.processes pid).outstanding.Sublist allowed
  bounded : world.Bounded bound

/-- The host has taken this answer to a line that it wrote to the process. -/
structure World.Answered (pid : Pid) (line : Line Request) (response : Response)
    (world : World Request Response) : Prop where
  written : (pid, line) ∈ world.written
  received : (pid, .answer line response) ∈ world.received

namespace World

variable {bound bound' : Nat → Nat} {world world' : World Request Response} {pid : Pid}
  {allowed : List (Line Request)}

theorem Drift.written_eq (h : world.Drift world') : world'.written = world.written := by
  cases h <;> rfl

theorem Drift.received_eq (h : world.Drift world') : world'.received = world.received := by
  cases h <;> rfl

theorem unwritten_bounded (bound : Nat → Nat) (h : world.written = []) : world.Bounded bound := by
  intro number
  rw [linesOf, h]
  exact Nat.zero_le _

theorem Drift.bounded (h : world.Drift world') (hw : world.Bounded bound) :
    world'.Bounded bound := by
  intro number
  rw [linesOf, h.written_eq]
  exact hw number

/-- A drifting world serves what it served. -/
theorem Drift.serving (h : world.Drift world') (hw : world.Serving pid allowed bound) :
    world'.Serving pid allowed bound := by
  refine ⟨?_, h.bounded hw.bounded⟩
  cases h with
  | process other process hprocess =>
      show (if pid = other then process else world.processes pid).outstanding.Sublist allowed
      split
      · rename_i heq
        subst heq
        exact hprocess.outstanding_sublist.trans hw.outstanding
      · exact hw.outstanding
  | cancel token => exact hw.outstanding
  | outlook _ _ _ => exact hw.outstanding

theorem Serving.quiet (h : world.Serving pid [] bound) : world.Quiet pid :=
  List.sublist_nil.mp h.outstanding

theorem Quiet.serving (h : world.Quiet pid) (hbounded : world.Bounded bound) :
    world.Serving pid [] bound :=
  ⟨by rw [h], hbounded⟩

end World

/-! ## A request -/

section Exchange

variable {ε : Type} {dialect : Dialect Request Response ε} {bound bound' : Nat → Nat}
  {world : World Request Response} {pid : Pid}

/-- A call that leaves the world alone. -/
theorem safe_ask {α : Type} {call : PipeCall Request} {inv : World Request Response → Prop}
    {ok : α → World Request Response → Prop} {err : ε → World Request Response → Prop}
    {next : (pipes Request Response).Reply call → Program (pipes Request Response) ε α}
    (during : World Request Response → Prop) (hw : during world)
    (hdrift : ∀ w w', during w → w.Drift w' → during w') (hinv : ∀ w, during w → inv w)
    (hask : ∀ w : World Request Response, (w.perform call).2 = w)
    (hnext : ∀ reply w, during w → World.machine.Safe inv ok err (next reply) w) :
    World.machine.Safe inv ok err (.call call next) world := by
  refine Machine.Safe.call_partway during hw hdrift hinv ?_
  intro w hw
  have hsame : (World.machine.perform call w).2 = w := hask w
  rw [hsame]
  exact hnext _ w hw

/-- What holds while a request waits for its answer. -/
structure Awaiting (pid : Pid) (line : Line Request) (bound : Nat → Nat)
    (world : World Request Response) : Prop where
  serving : world.Serving pid [line] bound
  written : (pid, line) ∈ world.written

theorem Awaiting.drift {line : Line Request} {world' : World Request Response}
    (hw : Awaiting pid line bound world) (h : world.Drift world') :
    Awaiting pid line bound world' :=
  ⟨h.serving hw.serving, h.written_eq ▸ hw.written⟩

/-- Asking for a token only waits. -/
theorem is_cancelled_safe {line : Line Request} (token : CancellationToken)
    (hw : Awaiting pid line bound world) :
    World.machine.Safe (World.Bounded bound) (fun _ => Awaiting pid line bound)
      (fun _ _ => True) (token.isCancelled : Program (pipes Request Response) ε Bool) world := by
  cases token with
  | unshared => exact ⟨hw.serving.bounded, hw⟩
  | shared id =>
      refine safe_ask (Awaiting pid line bound) hw (fun _ _ h hd => h.drift hd)
        (fun _ h => h.serving.bounded) (fun _ => rfl) ?_
      intro reply w hw
      exact ⟨hw.serving.bounded, hw⟩

/-- What a turn takes from the channel of a process that owes one answer at most. -/
theorem receive_awaiting {line : Line Request} {poll : Poll Response}
    {world' : World Request Response} (hw : Awaiting pid line bound world)
    (hpoll : world.receive pid = (poll, world')) :
    World.Bounded bound world' ∧
      (poll = .timeout → Awaiting pid line bound world') ∧
      ∀ response, poll = .response response →
        world'.Serving pid [] bound ∧ world'.Answered pid line response := by
  unfold World.receive at hpoll
  split at hpoll
  · cases hpoll
    refine ⟨hw.serving.bounded, fun _ => hw, ?_⟩
    intro response hresponse
    split at hresponse <;> cases hresponse
  · rename_i item rest hchannel
    cases hpoll
    refine ⟨hw.serving.bounded, ?_, ?_⟩
    · intro htimeout
      cases item <;> cases htimeout
    · intro response hresponse
      cases item with
      | failure message => cases hresponse
      | answer answered response' =>
          cases hresponse
          have hsublist := hw.serving.outstanding
          simp only [Process.outstanding, hchannel, List.filterMap_cons, Item.line?,
            List.cons_append] at hsublist
          obtain ⟨rfl, hnothing⟩ : answered = line ∧ List.filterMap Item.line? rest ++
              (world.processes pid).output.map Prod.fst ++
                (world.processes pid).reading.toList ++ (world.processes pid).input = [] := by
            rcases List.sublist_singleton.mp hsublist with hnil | hone
            · cases hnil
            · exact List.cons_eq_cons.mp hone
          have hprocess : ((world.update pid { world.processes pid with channel := rest }).processes
              pid).outstanding = [] := by
            rw [World.update_processes]
            exact hnothing
          refine ⟨⟨?_, hw.serving.bounded⟩, hw.written, ?_⟩
          · show ((world.update pid { world.processes pid with channel := rest }).processes
              pid).outstanding.Sublist []
            rw [hprocess]
          · exact List.mem_append_right _ (List.mem_singleton_self _)

/-- Waiting for an answer ends with the answer to the line that was written. -/
theorem await_response_safe {line : Line Request} {requestId : UInt64} {token : CancellationToken}
    (turns : Nat) (hw : Awaiting pid line bound world) :
    World.machine.Safe (World.Bounded bound)
      (fun response w => w.Serving pid [] bound ∧ w.Answered pid line response) (fun _ _ => True)
      (awaitResponse dialect pid requestId token turns) world := by
  have hdrift : ∀ w w' : World Request Response, Awaiting pid line bound w → w.Drift w' →
      Awaiting pid line bound w' := fun _ _ h hd => h.drift hd
  have hinv : ∀ w : World Request Response, Awaiting pid line bound w → w.Bounded bound :=
    fun _ h => h.serving.bounded
  induction turns generalizing world with
  | zero =>
      refine (is_cancelled_safe token hw).bind ?_
      intro cancelled w hbounded hw
      cases cancelled with
      | true => exact ⟨hbounded, trivial⟩
      | false => exact ⟨hbounded, trivial⟩
  | succ turns ih =>
      refine (is_cancelled_safe token hw).bind ?_
      intro cancelled w hbounded hw
      cases cancelled with
      | true => exact ⟨hbounded, trivial⟩
      | false =>
          refine safe_ask (Awaiting pid line bound) hw hdrift hinv (fun _ => rfl) ?_
          intro passed w hw
          cases passed with
          | true => exact ⟨hinv w hw, trivial⟩
          | false =>
              refine Machine.Safe.call_partway (Awaiting pid line bound) hw hdrift hinv ?_
              intro w hw
              cases hpoll : w.receive pid with
              | mk poll w' =>
                  obtain ⟨hbounded, htimeout, hresponse⟩ := receive_awaiting hw hpoll
                  have hperform : World.machine.perform (.receive pid) w = (poll, w') := hpoll
                  rw [hperform]
                  cases poll with
                  | failed message => exact ⟨hbounded, trivial⟩
                  | disconnected => exact ⟨hbounded, trivial⟩
                  | timeout => exact ih (htimeout rfl)
                  | response response =>
                      dsimp only
                      split
                      · exact ⟨hbounded, hresponse response rfl⟩
                      · exact ⟨hbounded, trivial⟩

/-- One more line for a request. -/
def bump (bound : Nat → Nat) (purpose : Purpose) (number : Nat) : Nat :=
  bound number + if purpose = .request number then 1 else 0

theorem send_bounded {purpose : Purpose} {request : Request} {arrives : Bool}
    (hw : world.Bounded bound) :
    (world.send pid ⟨purpose, request⟩ arrives).Bounded (bump bound purpose) := by
  intro number
  have hlines : (world.send pid ⟨purpose, request⟩ arrives).linesOf number =
      world.linesOf number + if purpose = .request number then 1 else 0 := by
    simp only [World.linesOf, World.send, List.countP_append, List.countP_singleton, beq_iff_eq]
  rw [hlines, bump]
  exact Nat.add_le_add_right (hw number) _

/-- A line that has been written to a quiet process is the only one outstanding there. -/
theorem send_awaiting {purpose : Purpose} {request : Request}
    (hw : world.Serving pid [] bound) :
    Awaiting pid ⟨purpose, request⟩ (bump bound purpose)
      (world.send pid ⟨purpose, request⟩ true) := by
  refine ⟨⟨?_, send_bounded hw.bounded⟩, List.mem_append_right _ (List.mem_singleton_self _)⟩
  have hquiet : (world.processes pid).outstanding = [] := hw.quiet
  have hprocess : ((world.send pid ⟨purpose, request⟩ true).processes pid).outstanding =
      (world.processes pid).outstanding ++ [⟨purpose, request⟩] := by
    simp [World.send, World.update, Process.outstanding]
  rw [hprocess, hquiet]
  exact List.Sublist.refl _

/-- A request to a quiet process leaves it quiet or fails, and writes at most one line. -/
theorem exchange_safe {nextId : UInt64} {purpose : Purpose} {request : UInt64 → Request}
    {timeout : Nat} {token : CancellationToken} (hw : world.Serving pid [] bound) :
    World.machine.Safe (World.Bounded (bump bound purpose))
      (fun response w => w.Serving pid [] (bump bound purpose) ∧
        ∃ line, line.purpose = purpose ∧ w.Answered pid line response)
      (fun _ _ => True) (exchange dialect pid nextId purpose request timeout token) world := by
  have hinv : ∀ w : World Request Response, w.Serving pid [] bound →
      w.Bounded (bump bound purpose) :=
    fun w h number => Nat.le_add_right_of_le (h.bounded number)
  have hfail : ∀ error : ε, World.machine.Safe (World.Bounded (bump bound purpose))
      (fun (response : Response) w => w.Serving pid [] (bump bound purpose) ∧
        ∃ line, line.purpose = purpose ∧ w.Answered pid line response)
      (fun _ _ => True) (.fail error) world :=
    fun error => ⟨hinv world hw, trivial⟩
  unfold exchange
  split
  · exact hfail _
  · split
    · exact hfail _
    · split
      · exact hfail _
      · rename_i line _
        refine Machine.Safe.call_partway (fun w => w.Serving pid [] bound) hw
          (fun _ _ h hd => hd.serving h) hinv ?_
        intro w hw
        have hperform : World.machine.perform (.write pid purpose (request nextId) line) w =
          w.write pid ⟨purpose, request nextId⟩ := rfl
        cases hrefusal : w.writeRefusal with
        | none =>
            rw [hperform, World.write_sent _ _ hrefusal]
            refine (await_response_safe _ (send_awaiting hw)).mono (fun _ h => h) ?_ fun _ _ _ h => h
            intro response w _ h
            exact ⟨h.1, _, rfl, h.2⟩
        | some refusal =>
            obtain ⟨error, arrives⟩ := refusal
            rw [hperform, World.write_refused _ _ hrefusal]
            exact ⟨send_bounded hw.bounded, trivial⟩

/-! ## An answered request -/

/-- Nothing stands in the way of a request to the process. -/
structure Ready (pid : Pid) (world : World Request Response) : Prop where
  process : world.processes pid = .started
  write : world.writeRefusal = none
  time : world.timeUp = false

/-- The worker answers the only line on its input, and the reader hands the answer over. -/
theorem drift_answers {line : Line Request} (response : Response)
    (h : world.processes pid = { Process.started with input := [line] }) :
    Relation.ReflTransGen World.Drift world
      (world.update pid { Process.started with channel := [.answer line response] }) := by
  have hread : world.Drift (world.update pid { Process.started with reading := some line }) := by
    have hstep := World.Drift.process world pid _
      (.read (world.processes pid) line [] (by rw [h]; rfl) (by rw [h]; rfl) (by rw [h]))
    rwa [h] at hstep
  have hanswer : (world.update pid { Process.started with reading := some line }).Drift
      (world.update pid { Process.started with output := [(line, response)] }) := by
    have hstep := World.Drift.process
      (world.update pid { Process.started with reading := some line }) pid _
      (.answer _ line response (by rw [World.update_processes]; rfl)
        (by rw [World.update_processes]))
    rwa [World.update_processes, World.update_update] at hstep
  have hforward : (world.update pid { Process.started with output := [(line, response)] }).Drift
      (world.update pid { Process.started with channel := [.answer line response] }) := by
    have hstep := World.Drift.process
      (world.update pid { Process.started with output := [(line, response)] }) pid _
      (.forward _ line response [] (by rw [World.update_processes]; rfl)
        (by rw [World.update_processes]))
    rwa [World.update_processes, World.update_update] at hstep
  exact .head hread (.head hanswer (.single hforward))

/-- An answer that arrives in time is returned. -/
theorem await_answered {line : Line Request} {requestId : UInt64} (turns : Nat)
    {response : Response} (htime : world.timeUp = false) (hwrite : world.writeRefusal = none)
    (hsent : world.processes pid = { Process.started with input := [line] })
    (hvalid : dialect.validateFor response requestId = .ok ()) :
    ∃ world', World.machine.Reaches
      (awaitResponse dialect pid requestId .unshared (turns + 1), world)
      (.done response, world') ∧ Ready pid world' := by
  have hanswers := drift_answers response hsent
  generalize hworld : world.update pid { Process.started with channel := [.answer line response] } =
    answered at hanswers
  have hchannel : answered.processes pid =
      { Process.started with channel := [.answer line response] } := by
    rw [← hworld, World.update_processes]
  have hlate : answered.timeUp = false := by
    rw [← hworld]
    exact htime
  have hreceive : answered.receive pid = (.response response,
      { answered.update pid .started with
        received := answered.received ++ [(pid, .answer line response)] }) := by
    simp only [World.receive, hchannel]
    rfl
  refine ⟨(answered.receive pid).2, ?_, ?_⟩
  · rw [awaitResponse]
    show World.machine.Reaches (.call .deadlinePassed _, world) _
    have hunderway : World.machine.Underway .deadlinePassed world answered := hanswers
    refine (hunderway.reaches _).trans ?_
    refine .head (.perform _ _ _) ?_
    have hpassed : World.machine.perform .deadlinePassed answered = (false, answered) := by
      show (answered.timeUp, answered) = _
      rw [hlate]
    rw [hpassed]
    refine .head (.perform _ _ _) ?_
    have hperform : World.machine.perform (.receive pid) answered =
        (.response response, (answered.receive pid).2) := by
      have hfst : (answered.receive pid).1 = .response response := by rw [hreceive]
      exact Prod.ext hfst rfl
    rw [hperform]
    simp only [hvalid]
    exact .refl
  · rw [hreceive]
    refine ⟨World.update_processes _ _ _, ?_, hlate⟩
    rw [← hworld]
    exact hwrite

/-- A request that is written and then answered in time returns the answer. -/
theorem exchange_answered {nextId : UInt64} (purpose : Purpose) (request : UInt64 → Request)
    {encoded line : List UInt8} (timeout : Nat) {response : Response} (hready : Ready pid world)
    (hid : nextId.toNat + 1 ≠ UInt64.size) (hencode : dialect.encode (request nextId) = .ok encoded)
    (hframe : dialect.frame encoded = .ok line)
    (hvalid : dialect.validateFor response nextId = .ok ()) :
    ∃ world', World.machine.Reaches
      (exchange dialect pid nextId purpose request timeout .unshared, world)
      (.done response, world') ∧ Ready pid world' := by
  have hsent : (world.send pid ⟨purpose, request nextId⟩ true).processes pid =
      { Process.started with input := [⟨purpose, request nextId⟩] } := by
    simp [World.send, World.update, hready.process, Process.started]
  have htime : (world.send pid ⟨purpose, request nextId⟩ true).timeUp = false := hready.time
  obtain ⟨world', hreach, hready'⟩ :=
    await_answered (timeout / cancellationPollInterval) htime hready.write hsent hvalid
  refine ⟨world', ?_, hready'⟩
  have hperform : World.machine.perform (.write pid purpose (request nextId) line) world =
      (.ok (), world.send pid ⟨purpose, request nextId⟩ true) :=
    World.write_sent _ _ hready.write
  simp only [exchange, if_neg hid, hencode, hframe]
  refine .head (.perform _ _ _) ?_
  rw [hperform]
  exact hreach

end Exchange

/-! ## The supervisor -/

section Supervisor

variable {Value : Type} {host : WorkerHost Value} {bound : Nat → Nat}
  {world : World (RequestEnvelope Value) (ResponseEnvelope Value)}

/-- The process that the supervisor keeps owes no answer. -/
def Settled (supervisor : WorkerSupervisor)
    (world : World (RequestEnvelope Value) (ResponseEnvelope Value)) : Prop :=
  ∀ client, supervisor.worker = some client → world.Quiet client.pid

theorem client_request_safe {client : WorkerClient} (purpose : Purpose)
    (command : WorkerCommand Value) (timeout : Nat) (token : CancellationToken)
    (hw : world.Serving client.pid [] bound) :
    World.machine.Safe (World.Bounded (bump bound purpose))
      (fun result w => result.2.pid = client.pid ∧
        w.Serving client.pid [] (bump bound purpose) ∧
        ∃ line, line.purpose = purpose ∧ w.Answered client.pid line result.1)
      (fun _ _ => True) (client.request host purpose command timeout token) world := by
  unfold WorkerClient.request
  refine (exchange_safe hw).bind ?_
  intro response w hbounded h
  exact ⟨hbounded, rfl, h.1, h.2⟩

theorem bump_boot (bound : Nat → Nat) : bump bound .boot = bound := by
  funext number
  simp [bump]

theorem boot_safe {client : WorkerClient} (hw : world.Serving client.pid [] bound) :
    World.machine.Safe (World.Bounded bound)
      (fun result w => result.2.pid = client.pid ∧ w.Serving client.pid [] bound)
      (fun _ _ => True) (client.boot host) world := by
  have hrequest : World.machine.Safe (World.Bounded bound)
      (fun result w => result.2.pid = client.pid ∧ w.Serving client.pid [] bound)
      (fun _ _ => True)
      ((client.request host .boot ⟨bootCommand, mainWindowId, host.null⟩ bootTimeout
        .unshared).mapError WorkerRequestError.text) world := by
    apply Machine.Safe.mapError
    rw [← bump_boot bound]
    exact (client_request_safe _ _ _ _ hw).mono (fun _ h => h) (fun _ _ _ h => ⟨h.1, h.2.1⟩)
      fun _ _ _ h => h
  unfold WorkerClient.boot
  refine hrequest.bind ?_
  intro result w hbounded h
  obtain ⟨response, client'⟩ := result
  dsimp only
  split
  · exact ⟨hbounded, trivial⟩
  · split
    · exact ⟨hbounded, h⟩
    · exact ⟨hbounded, trivial⟩

theorem drop_with_safe {α : Type} {ok : α → World (RequestEnvelope Value) (ResponseEnvelope Value) → Prop}
    (pid : Pid) (error : String) (hw : world.Bounded bound) :
    World.machine.Safe (World.Bounded bound) ok (fun _ _ => True) (dropWith pid error) world := by
  refine Machine.Safe.call_partway (World.Bounded bound) hw (fun _ _ h hd => hd.bounded h)
    (fun _ h => h) ?_
  intro w hw
  exact ⟨hw, trivial⟩

/-- A worker that has booted owes no answer. -/
theorem spawn_ready_worker_safe (hw : world.Bounded bound) :
    World.machine.Safe (World.Bounded bound)
      (fun result w => w.Serving result.1.pid [] bound) (fun _ _ => True)
      (spawnReadyWorker host) world := by
  refine Machine.Safe.call_partway (World.Bounded bound) hw (fun _ _ h hd => hd.bounded h)
    (fun _ h => h) ?_
  intro w hw
  cases hrefusal : w.spawnRefusal with
  | some error =>
      have hspawn : World.machine.perform .spawn w = (.error error, w) := World.spawn_refused hrefusal
      rw [hspawn]
      exact ⟨hw, trivial⟩
  | none =>
      have hspawn : World.machine.perform .spawn w = (.ok w.spawned,
          { w.update w.spawned .started with spawned := w.spawned + 1 }) :=
        World.spawn_started hrefusal
      rw [hspawn]
      have hstarted : World.Serving w.spawned [] bound
          { w.update w.spawned .started with spawned := w.spawned + 1 } := by
        refine ⟨?_, hw⟩
        show ((w.update w.spawned .started).processes w.spawned).outstanding.Sublist []
        rw [World.update_processes]
        exact List.Sublist.refl _
      have hboot : World.machine.Safe (World.Bounded bound)
          (fun result w' => w'.Serving result.2.pid [] bound) (fun _ _ => True)
          (WorkerClient.boot host ⟨w.spawned, 1⟩)
          { w.update w.spawned .started with spawned := w.spawned + 1 } := by
        refine (boot_safe hstarted).mono (fun _ h => h) ?_ fun _ _ _ h => h
        intro result w' _ h
        rw [h.1]
        exact h.2
      refine hboot.attempt.bind ?_
      intro result w' hbounded h
      cases result with
      | error error => exact drop_with_safe _ _ hbounded
      | ok booted =>
          obtain ⟨bootstrap, client⟩ := booted
          dsimp only
          split
          · exact drop_with_safe _ _ hbounded
          · exact ⟨hbounded, h⟩

theorem drop_process_safe (pid : Option Pid) (hw : world.Bounded bound) :
    World.machine.Safe (World.Bounded bound) (fun _ _ => True) (fun _ _ => True)
      (dropProcess pid) world := by
  cases pid with
  | none => exact ⟨hw, trivial⟩
  | some pid =>
      refine Machine.Safe.call_partway (World.Bounded bound) hw (fun _ _ h hd => hd.bounded h)
        (fun _ h => h) ?_
      intro w hw
      exact ⟨hw, trivial⟩

/-- After a restart the worker, if there is one, owes no answer. -/
theorem restart_safe {supervisor : WorkerSupervisor} (hw : world.Bounded bound) :
    World.machine.Safe (World.Bounded bound) (fun result w => Settled result.2 w) (fun _ _ => True)
      (supervisor.restart host) world := by
  unfold WorkerSupervisor.restart
  refine (drop_process_safe _ hw).bind ?_
  intro _ w hbounded _
  refine (spawn_ready_worker_safe hbounded).attempt.bind ?_
  intro result w hbounded h
  cases result with
  | error error =>
      refine ⟨hbounded, ?_⟩
      intro client hclient
      cases hclient
  | ok ready =>
      obtain ⟨worker, bootstrap⟩ := ready
      refine ⟨hbounded, ?_⟩
      intro client hclient
      cases hclient
      exact h.quiet

/-- What a request to the supervisor comes to. -/
structure Handled (number : Nat)
    (result : Except WorkerRequestError (ResponseEnvelope Value) × WorkerSupervisor)
    (world : World (RequestEnvelope Value) (ResponseEnvelope Value)) : Prop where
  settled : Settled result.2 world
  own : ∀ response, result.1 = .ok response →
    ∃ pid line, line.purpose = .request number ∧ world.Answered pid line response

theorem request_worker_safe {supervisor : WorkerSupervisor} {client : WorkerClient} {number : Nat}
    {command : WorkerCommand Value} {timeout : Nat} {token : CancellationToken}
    (hw : world.Serving client.pid [] bound) :
    World.machine.Safe (World.Bounded (bump bound (.request number))) (Handled number)
      (fun _ _ => True) (supervisor.requestWorker host client number command timeout token)
      world := by
  unfold WorkerSupervisor.requestWorker
  refine (client_request_safe _ _ _ _ hw).attempt.bind ?_
  intro result w hbounded h
  cases result with
  | ok answered =>
      obtain ⟨response, client'⟩ := answered
      obtain ⟨hpid, hserving, line, hpurpose, hanswered⟩ := h
      refine ⟨hbounded, ?_, ?_⟩
      · intro kept hkept
        cases hkept
        have hpid : client'.pid = client.pid := hpid
        rw [hpid]
        exact hserving.quiet
      · intro response' hresponse
        cases hresponse
        exact ⟨client.pid, line, hpurpose, hanswered⟩
  | error error =>
      refine (restart_safe hbounded).bind ?_
      intro restarted w hbounded h
      obtain ⟨_, supervisor'⟩ := restarted
      refine ⟨hbounded, h, ?_⟩
      intro response hresponse
      cases hresponse

/-- A request to a settled supervisor leaves it settled and answers with the worker's answer. -/
theorem request_safe {supervisor : WorkerSupervisor} {number : Nat} {command : WorkerCommand Value}
    {timeout : Nat} {token : CancellationToken} (hsettled : Settled supervisor world)
    (hw : world.Bounded bound) :
    World.machine.Safe (World.Bounded (bump bound (.request number))) (Handled number)
      (fun _ _ => True) (supervisor.request host number command timeout token) world := by
  have hbump : ∀ w : World (RequestEnvelope Value) (ResponseEnvelope Value), w.Bounded bound →
      w.Bounded (bump bound (.request number)) :=
    fun _ h number => Nat.le_add_right_of_le (h number)
  unfold WorkerSupervisor.request
  split
  · rename_i client hclient
    exact request_worker_safe ((hsettled client hclient).serving hw)
  · have hrestart : World.machine.Safe (World.Bounded (bump bound (.request number)))
        (fun result w => Settled result.2 w ∧ w.Bounded bound) (fun _ _ => True)
        (supervisor.restart host) world :=
      (restart_safe hw).mono hbump (fun _ _ hbounded h => ⟨h, hbounded⟩) fun _ _ _ h => h
    refine hrestart.bind ?_
    intro restarted w hbounded h
    obtain ⟨result, supervisor'⟩ := restarted
    cases result with
    | error error =>
        refine ⟨hbounded, h.1, ?_⟩
        intro response hresponse
        cases hresponse
    | ok bootstrap =>
        dsimp only
        split
        · refine ⟨hbounded, h.1, ?_⟩
          intro response hresponse
          cases hresponse
        · rename_i client hclient
          exact request_worker_safe ((h.1 client hclient).serving h.2)

theorem start_safe (hw : world.Bounded bound) :
    World.machine.Safe (World.Bounded bound) (fun supervisor w => Settled supervisor w)
      (fun _ _ => True) (WorkerSupervisor.start host) world := by
  unfold WorkerSupervisor.start
  refine (spawn_ready_worker_safe hw).bind ?_
  intro ready w hbounded h
  obtain ⟨worker, bootstrap⟩ := ready
  refine ⟨hbounded, ?_⟩
  intro client hclient
  cases hclient
  exact h.quiet

/-! ## Any sequence of requests -/

/-- The results of the requests so far, from the start of the supervisor on. The world drifts
between the requests as well as during them. -/
inductive Serves (host : WorkerHost Value) :
    List (Except WorkerRequestError (ResponseEnvelope Value)) → WorkerSupervisor →
      World (RequestEnvelope Value) (ResponseEnvelope Value) → Prop where
  | start {world world' supervisor} : world.written = [] →
      World.machine.Reaches (WorkerSupervisor.start host, world) (.done supervisor, world') →
      Serves host [] supervisor world'
  | drift {results supervisor world world'} : Serves host results supervisor world →
      world.Drift world' → Serves host results supervisor world'
  | request {results supervisor world command timeout token result supervisor' world'} :
      Serves host results supervisor world →
      World.machine.Reaches
        (supervisor.request host results.length command timeout token, world)
        (.done (result, supervisor'), world') →
      Serves host (results ++ [result]) supervisor' world'

/-- Nothing is ever taken out of the records. -/
structure Extends (world world' : World (RequestEnvelope Value) (ResponseEnvelope Value)) :
    Prop where
  written : world.written ⊆ world'.written
  received : world.received ⊆ world'.received

theorem Extends.refl (world : World (RequestEnvelope Value) (ResponseEnvelope Value)) :
    Extends world world :=
  ⟨fun _ h => h, fun _ h => h⟩

theorem Extends.trans {first middle last : World (RequestEnvelope Value) (ResponseEnvelope Value)}
    (h : Extends first middle) (h' : Extends middle last) : Extends first last :=
  ⟨List.Subset.trans h.written h'.written, List.Subset.trans h.received h'.received⟩

theorem drift_extends {world world' : World (RequestEnvelope Value) (ResponseEnvelope Value)}
    (h : world.Drift world') : Extends world world' := by
  constructor
  · rw [h.written_eq]
    exact fun _ h => h
  · rw [h.received_eq]
    exact fun _ h => h

theorem perform_extends (call : PipeCall (RequestEnvelope Value))
    (world : World (RequestEnvelope Value) (ResponseEnvelope Value)) :
    Extends world (World.machine.perform call world).2 := by
  cases call with
  | isCancelled token => exact .refl world
  | deadlinePassed => exact .refl world
  | stop pid => exact ⟨fun _ h => h, fun _ h => h⟩
  | spawn =>
      show Extends world world.spawn.2
      unfold World.spawn
      split <;> exact ⟨fun _ h => h, fun _ h => h⟩
  | write pid purpose request line =>
      show Extends world (world.write pid ⟨purpose, request⟩).2
      unfold World.write
      split <;> exact ⟨List.subset_append_left _ _, fun _ h => h⟩
  | receive pid =>
      show Extends world (world.receive pid).2
      unfold World.receive
      split
      · exact .refl world
      · exact ⟨fun _ h => h, List.subset_append_left _ _⟩

/-- A run only adds to the records. -/
theorem reaches_extends {ε α : Type} {p p' : Program (workerPipes Value) ε α}
    {world world' : World (RequestEnvelope Value) (ResponseEnvelope Value)}
    (h : World.machine.Reaches (p, world) (p', world')) : Extends world world' := by
  generalize hstart : (p, world) = start at h
  generalize hfinish : (p', world') = finish at h
  induction h generalizing p' world' with
  | refl =>
      obtain ⟨-, rfl⟩ := Prod.mk.inj (hstart.trans hfinish.symm)
      exact .refl world
  | tail _ hstep ih =>
      subst hfinish
      cases hstep with
      | partway c next w _ hdrift => exact (ih rfl).trans (drift_extends hdrift)
      | perform c next w => exact (ih rfl).trans (perform_extends c w)

/-- At most one line for each request that has been made. -/
def onePerRequest (requests : Nat) (number : Nat) : Nat := if number < requests then 1 else 0

theorem bump_one_per_request (requests : Nat) :
    bump (onePerRequest requests) (.request requests) = onePerRequest (requests + 1) := by
  funext number
  simp only [bump, onePerRequest, Purpose.request.injEq]
  split_ifs <;> omega

/-- The invariant of a sequence of requests. -/
structure InOrder (results : List (Except WorkerRequestError (ResponseEnvelope Value)))
    (supervisor : WorkerSupervisor)
    (world : World (RequestEnvelope Value) (ResponseEnvelope Value)) : Prop where
  settled : Settled supervisor world
  bounded : world.Bounded (onePerRequest results.length)
  own : ∀ number response, results[number]? = some (.ok response) →
    ∃ pid line, line.purpose = .request number ∧ world.Answered pid line response

theorem drift_settled {supervisor : WorkerSupervisor}
    {world' : World (RequestEnvelope Value) (ResponseEnvelope Value)} (h : world.Drift world')
    (hsettled : Settled supervisor world) : Settled supervisor world' := by
  intro client hclient
  have hserving : world.Serving client.pid [] world.linesOf :=
    (hsettled client hclient).serving fun _ => Nat.le_refl _
  exact (h.serving hserving).quiet

theorem Extends.answered {world' : World (RequestEnvelope Value) (ResponseEnvelope Value)}
    {pid : Pid} {line : Line (RequestEnvelope Value)} {response : ResponseEnvelope Value}
    (h : Extends world world') (hanswered : world.Answered pid line response) :
    world'.Answered pid line response :=
  ⟨h.written hanswered.written, h.received hanswered.received⟩

theorem serves_in_order {results : List (Except WorkerRequestError (ResponseEnvelope Value))}
    {supervisor : WorkerSupervisor} (h : Serves host results supervisor world) :
    InOrder results supervisor world := by
  induction h with
  | start hwritten hreach =>
      have hbounded := World.unwritten_bounded (onePerRequest 0) hwritten
      have hsafe := (start_safe hbounded).of_reaches hreach
      exact ⟨hsafe.2, hsafe.1, fun _ _ h => by cases h⟩
  | drift _ hdrift ih =>
      refine ⟨drift_settled hdrift ih.settled, hdrift.bounded ih.bounded, ?_⟩
      intro number response hresult
      obtain ⟨pid, line, hpurpose, hanswered⟩ := ih.own number response hresult
      exact ⟨pid, line, hpurpose, (drift_extends hdrift).answered hanswered⟩
  | request _ hreach ih =>
      rename_i results supervisor world command timeout token result supervisor' world' _
      obtain ⟨hbounded, hhandled⟩ := (request_safe ih.settled ih.bounded).of_reaches hreach
      rw [bump_one_per_request] at hbounded
      refine ⟨hhandled.settled, by rwa [List.length_append], ?_⟩
      intro number response hresult
      rcases Nat.lt_trichotomy number results.length with hbefore | rfl | hafter
      · rw [List.getElem?_append_left hbefore] at hresult
        obtain ⟨pid, line, hpurpose, hanswered⟩ := ih.own number response hresult
        exact ⟨pid, line, hpurpose, (reaches_extends hreach).answered hanswered⟩
      · rw [List.getElem?_concat_length] at hresult
        exact hhandled.own response (Option.some.inj hresult)
      · rw [List.getElem?_eq_none (by simp; omega)] at hresult
        cases hresult

/-- Every response is the answer to the one line that its request has written, and between
requests the worker that is kept owes no answer. -/
theorem responses_answer_own_lines
    {results : List (Except WorkerRequestError (ResponseEnvelope Value))}
    {supervisor : WorkerSupervisor} (h : Serves host results supervisor world) :
    (∀ number response, results[number]? = some (.ok response) →
      ∃ pid line, line.purpose = .request number ∧ (pid, line) ∈ world.written ∧
        (pid, .answer line response) ∈ world.received) ∧
    (∀ number, world.linesOf number ≤ 1) ∧
    ∀ client, supervisor.worker = some client → world.Quiet client.pid := by
  have horder := serves_in_order h
  refine ⟨?_, ?_, horder.settled⟩
  · intro number response hresult
    obtain ⟨pid, line, hpurpose, hanswered⟩ := horder.own number response hresult
    exact ⟨pid, line, hpurpose, hanswered.written, hanswered.received⟩
  · intro number
    have hone : onePerRequest results.length number ≤ 1 := by
      unfold onePerRequest
      split <;> omega
    exact Nat.le_trans (horder.bounded number) hone

end Supervisor

/-! ## The worker of the notes application -/

/-- Before the worker has been started. -/
def notesWorld : World (RequestEnvelope NotesValue) (ResponseEnvelope NotesValue) where
  processes _ := .started
  spawned := 0
  tokens _ := false
  timeUp := false
  spawnRefusal := none
  writeRefusal := none
  written := []
  received := []

/-- The command that saves an empty note. -/
def notesSave : WorkerCommand NotesValue := ⟨"notes.save", "main", .text ""⟩

/-- A short request of the notes application is answered. -/
theorem notes_answered {world : World (RequestEnvelope NotesValue) (ResponseEnvelope NotesValue)}
    (client : WorkerClient) (purpose : Purpose) (command : WorkerCommand NotesValue)
    (timeout : Nat) (payload : NotesValue) (hready : Ready client.pid world)
    (hid : client.nextId.toNat + 1 ≠ UInt64.size)
    (hlength : (notesEncode (command.envelope client.nextId)).length ≤ maxMessageBytes) :
    ∃ world', World.machine.Reaches
      (client.request notesWorkerHost purpose command timeout .unshared, world)
      (.done (notesResponse client.nextId payload, ⟨client.pid, client.nextId + 1⟩), world') ∧
        Ready client.pid world' := by
  have hframe : (workerDialect notesWorkerHost).frame (notesEncode (command.envelope client.nextId)) =
      .ok (notesEncode (command.envelope client.nextId) ++ [newline]) := by
    have hdialect : (workerDialect notesWorkerHost).frame = frameWorkerRequest := rfl
    rw [hdialect, frameWorkerRequest, frame, if_neg (Nat.not_lt.mpr hlength)]
  have hvalid : (workerDialect notesWorkerHost).validateFor (notesResponse client.nextId payload)
      client.nextId = .ok () := by
    have hdialect : (workerDialect notesWorkerHost).validateFor = ResponseEnvelope.validateFor := rfl
    rw [hdialect]
    simp [ResponseEnvelope.validateFor, notesResponse, protocolVersion]
  have hencode : (workerDialect notesWorkerHost).encode (command.envelope client.nextId) =
      .ok (notesEncode (command.envelope client.nextId)) := rfl
  obtain ⟨world', hreach, hready'⟩ :=
    exchange_answered purpose command.envelope timeout hready hid hencode hframe hvalid
  exact ⟨world', hreach.bind _, hready'⟩

theorem notes_boots {world : World (RequestEnvelope NotesValue) (ResponseEnvelope NotesValue)}
    (hready : Ready 0 world) :
    ∃ world', World.machine.Reaches (WorkerClient.boot notesWorkerHost ⟨0, 1⟩, world)
      (.done (notesBootstrap ["main"] notesWorkstation, ⟨0, 2⟩), world') ∧ Ready 0 world' := by
  obtain ⟨world', hreach, hready'⟩ := notes_answered ⟨0, 1⟩ .boot
    ⟨bootCommand, mainWindowId, .null⟩ bootTimeout .bootstrap hready (by decide) (by decide +kernel)
  exact ⟨world', (hreach.mapError _).bind _, hready'⟩

/-- The supervisor starts with a worker that has booted. -/
theorem notes_started : ∃ world, World.machine.Reaches
    (WorkerSupervisor.start notesWorkerHost, notesWorld)
    (.done ⟨some ⟨0, 2⟩, notesBootstrap ["main"] notesWorkstation, 1⟩, world) ∧ Ready 0 world := by
  have hspawned : Ready 0 ({ notesWorld.update 0 .started with spawned := 1 } :
      World (RequestEnvelope NotesValue) (ResponseEnvelope NotesValue)) :=
    ⟨rfl, rfl, rfl⟩
  obtain ⟨world, hboot, hready⟩ := notes_boots hspawned
  have hvalid : (notesBootstrap ["main"] notesWorkstation).validate notesPlatform = .ok () := by decide
  refine ⟨world, ?_, hready⟩
  refine .head (.perform _ _ _) ?_
  refine .trans ((hboot.attempt.bind _).bind _) ?_
  have hplatform : notesWorkerHost.platform = notesPlatform := rfl
  simp only [Program.attempt, Program.done_bind, hplatform, hvalid]
  exact .refl

/-- The supervisor of the notes worker after so many requests to its first process. -/
def notesSupervisor (nextId : UInt64) : WorkerSupervisor :=
  ⟨some ⟨0, nextId⟩, notesBootstrap ["main"] notesWorkstation, 1⟩

theorem notes_save_served {world world' : World (RequestEnvelope NotesValue)
    (ResponseEnvelope NotesValue)} {nextId : UInt64} {number timeout : Nat}
    {response : ResponseEnvelope NotesValue}
    (h : World.machine.Reaches (WorkerClient.request notesWorkerHost ⟨0, nextId⟩ (.request number)
      notesSave timeout .unshared, world) (.done (response, ⟨0, nextId + 1⟩), world')) :
    World.machine.Reaches
      ((notesSupervisor nextId).request notesWorkerHost number notesSave timeout .unshared, world)
      (.done (.ok response, notesSupervisor (nextId + 1)), world') := by
  unfold WorkerSupervisor.request
  simp only [notesSupervisor]
  unfold WorkerSupervisor.requestWorker
  exact h.attempt.bind _

/-- A note is saved, and the response is the answer to that request. -/
theorem notes_save_answered : ∃ supervisor world,
    Serves notesWorkerHost [.ok (notesResponse 2 .null)] supervisor world ∧
      ∃ pid line, line.purpose = .request 0 ∧ (pid, line) ∈ world.written ∧
        (pid, .answer line (notesResponse 2 .null)) ∈ world.received := by
  obtain ⟨world, hstart, hready⟩ := notes_started
  obtain ⟨world', hrequest, -⟩ := notes_answered ⟨0, 2⟩ (.request 0) notesSave 5000 .null hready
    (by decide) (by decide +kernel)
  have hstarted : Serves notesWorkerHost [] (notesSupervisor 2) world := .start rfl hstart
  have hserves := hstarted.request (notes_save_served hrequest)
  exact ⟨_, _, hserves, (responses_answer_own_lines hserves).1 0 _ rfl⟩

end PamDesktop.Worker
