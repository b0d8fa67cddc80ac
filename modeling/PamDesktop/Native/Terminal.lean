import PamDesktop.Foundations.Transition
import PamDesktop.Native.GrantStore

/-!
# The output of a terminal

What a command writes to its PTY comes to the page through the kernel, a reader thread, a bounded
channel and the drain loops of `read_pty`. `Terminal.flow` is everything that is on its way, in
order: `Terminal.Moved` says once what a step makes of it. `Terminal.output_complete_iff` says in
which runs the page gets all of it.
-/

namespace PamDesktop.Native

open Foundations Protocol

/-! ## The session -/

/-- The buffer of the reader thread. -/
def readBuffer : Nat := 16 * 1024

/-- The bound of the channel. -/
def channelBound : Nat := 64

/-- What `read_pty` returns at most, and one chunk. -/
def drainBound : Nat := 256 * 1024

/-- `portable_pty::ExitStatus`. -/
structure ExitStatus where
  exitCode : UInt32
  signal : Option String
deriving DecidableEq

/-- The answer of `read_pty`. -/
structure PtyOutput where
  data : List UInt8
  encoding : Nat
  running : Bool
  exitCode : Option UInt32
  signal : Option String
deriving DecidableEq

/-- Why the reader thread breaks out of its loop: `Ok(0)`, `Err(_)`, or a chunk that is not sent. -/
inductive ReaderEnd where
  | endOfOutput | failed | unwanted
deriving DecidableEq

/-- The reader thread. -/
inductive Reader where
  | reading
  | sending (chunk : List UInt8)
  | ended (reason : ReaderEnd)
deriving DecidableEq

/-- A call of `read_pty`: in the first drain loop, in the wait, in the second drain loop, or before
the exit status is asked for. -/
inductive ReadPty where
  | draining (bytes : List UInt8)
  | waiting
  | redraining (bytes : List UInt8)
  | checking (bytes : List UInt8) (outputClosed : Bool)
deriving DecidableEq

/-- A terminal: what the command has written, what of it the kernel holds, whether the command and
its children have let go of the PTY, and the session with the answers to its calls. -/
structure Terminal where
  written : List UInt8
  unread : List UInt8
  hungUp : Bool
  reader : Reader
  channel : List (List UInt8)
  isOpen : Bool
  call : Option ReadPty
  answers : List (Except NativeError PtyOutput)
deriving DecidableEq

/-- `open_pty` has inserted the session. -/
def openPty : Terminal := ⟨[], [], false, .reading, [], true, none, []⟩

/-- `mpsc::TryRecvError`. -/
inductive TryRecvError where
  | empty | disconnected

/-- `try_recv`. -/
def tryRecv : Reader → List (List UInt8) →
    Except TryRecvError (List UInt8 × List (List UInt8))
  | _, chunk :: rest => .ok (chunk, rest)
  | .ended _, [] => .error .disconnected
  | _, [] => .error .empty

/-- A round of a drain loop: more bytes and what is left, or what the end of the loop knows of
`output_closed`. -/
def drain (reader : Reader) (channel : List (List UInt8)) (bytes : List UInt8) :
    Except Bool (List UInt8 × List (List UInt8)) :=
  if bytes.length < drainBound then
    match tryRecv reader channel with
    | .ok (chunk, rest) => .ok (bytes ++ chunk, rest)
    | .error .empty => .error false
    | .error .disconnected => .error true
  else .error false

/-- What the call does next with the channel; `none` where it waits. -/
def ReadPty.receive (reader : Reader) (channel : List (List UInt8)) :
    ReadPty → Option (ReadPty × List (List UInt8))
  | .draining bytes =>
      match drain reader channel bytes with
      | .ok (more, rest) => some (.draining more, rest)
      | .error outputClosed =>
          if bytes = [] ∧ outputClosed = false then some (.waiting, channel)
          else some (.checking bytes outputClosed, channel)
  | .waiting =>
      match tryRecv reader channel with
      | .ok (chunk, rest) => some (.redraining chunk, rest)
      | .error .empty => none
      | .error .disconnected => some (.checking [] true, channel)
  | .redraining bytes =>
      match drain reader channel bytes with
      | .ok (more, rest) => some (.redraining more, rest)
      | .error outputClosed => some (.checking bytes outputClosed, channel)
  | .checking _ _ => none

/-- The end of the call, with what `try_wait` says. -/
def answerOf (bytes : List UInt8) (outputClosed : Bool) :
    Except String (Option ExitStatus) → Except NativeError PtyOutput
  | .error error => .error (.native "Cannot inspect terminal command" error)
  | .ok exit =>
      .ok ⟨bytes, 1, exit.isNone || !outputClosed, exit.map ExitStatus.exitCode,
        exit.bind ExitStatus.signal⟩

inductive TerminalEvent where
  /-- The command writes to the PTY. -/
  | write (bytes : List UInt8)
  /-- The last process that has the PTY closes it. -/
  | hangUp
  /-- The reader thread reads so many bytes. -/
  | read (count : Nat)
  /-- The reader thread reads the end of the output. -/
  | readEnd
  /-- The reader thread reads an error. -/
  | readError
  /-- The reader thread sends its chunk. -/
  | send
  /-- `read_pty` is called. -/
  | call
  /-- The call receives, or comes to the end of its loop. -/
  | receive
  /-- The wait of the call is over. -/
  | timeout
  /-- The call asks for the exit status and answers. -/
  | status (result : Except String (Option ExitStatus))
  /-- `close_pty`, or the drop of the services. -/
  | close

namespace Terminal

def write (s : Terminal) (bytes : List UInt8) : Option Terminal :=
  if s.hungUp then none
  else some { s with written := s.written ++ bytes, unread := s.unread ++ bytes }

def read (s : Terminal) (count : Nat) : Option Terminal :=
  if s.reader = .reading ∧ 0 < count ∧ count ≤ readBuffer ∧ count ≤ s.unread.length then
    some { s with reader := .sending (s.unread.take count), unread := s.unread.drop count }
  else none

def readEnd (s : Terminal) : Option Terminal :=
  if s.reader = .reading ∧ s.hungUp = true ∧ s.unread = [] then
    some { s with reader := .ended .endOfOutput }
  else none

def readError (s : Terminal) : Option Terminal :=
  if s.reader = .reading then some { s with reader := .ended .failed } else none

def send (s : Terminal) : Option Terminal :=
  match s.reader with
  | .sending chunk =>
      if s.isOpen = false then some { s with reader := .ended .unwanted }
      else if s.channel.length < channelBound then
        some { s with reader := .reading, channel := s.channel ++ [chunk] }
      else none
  | _ => none

def beginCall (s : Terminal) : Option Terminal :=
  if s.call ≠ none then none
  else if s.isOpen then some { s with call := some (.draining []) }
  else some { s with
    answers := s.answers ++ [.error (.notFound "Terminal session does not exist.")] }

def receive (s : Terminal) : Option Terminal :=
  match s.call with
  | none => none
  | some call =>
      match call.receive s.reader s.channel with
      | none => none
      | some (next, channel) => some { s with call := some next, channel }

def timeout (s : Terminal) : Option Terminal :=
  if s.call = some .waiting then some { s with call := some (.checking [] false) } else none

def status (s : Terminal) (result : Except String (Option ExitStatus)) : Option Terminal :=
  match s.call with
  | some (.checking bytes outputClosed) =>
      some { s with call := none, answers := s.answers ++ [answerOf bytes outputClosed result] }
  | _ => none

def close (s : Terminal) : Option Terminal :=
  if s.call = none ∧ s.isOpen = true then some { s with isOpen := false, channel := [] } else none

end Terminal

/-- A terminal with its session. -/
def terminal : System Terminal TerminalEvent where
  next s
    | .write bytes => s.write bytes
    | .hangUp => some { s with hungUp := true }
    | .read count => s.read count
    | .readEnd => s.readEnd
    | .readError => s.readError
    | .send => s.send
    | .call => s.beginCall
    | .receive => s.receive
    | .timeout => s.timeout
    | .status result => s.status result
    | .close => s.close

/-- What the steps are. -/
inductive Terminal.Steps (s : Terminal) : TerminalEvent → Terminal → Prop
  | write {bytes : List UInt8} : s.hungUp = false →
      Steps s (.write bytes) { s with written := s.written ++ bytes, unread := s.unread ++ bytes }
  | hangUp : Steps s .hangUp { s with hungUp := true }
  | read {count : Nat} : s.reader = .reading → Steps s (.read count) { s with
      reader := .sending (s.unread.take count), unread := s.unread.drop count }
  | readEnd : s.reader = .reading → s.hungUp = true → s.unread = [] →
      Steps s .readEnd { s with reader := .ended .endOfOutput }
  | readError : s.reader = .reading → Steps s .readError { s with reader := .ended .failed }
  | unwanted {chunk : List UInt8} : s.reader = .sending chunk → s.isOpen = false →
      Steps s .send { s with reader := .ended .unwanted }
  | send {chunk : List UInt8} : s.reader = .sending chunk → s.isOpen = true →
      Steps s .send { s with reader := .reading, channel := s.channel ++ [chunk] }
  | call : s.call = none → s.isOpen = true → Steps s .call { s with call := some (.draining []) }
  | refused {error : NativeError} : s.call = none → s.isOpen = false →
      Steps s .call { s with answers := s.answers ++ [.error error] }
  | receive {call next : ReadPty} {channel : List (List UInt8)} : s.call = some call →
      call.receive s.reader s.channel = some (next, channel) →
      Steps s .receive { s with call := some next, channel }
  | timeout : s.call = some .waiting → Steps s .timeout { s with call := some (.checking [] false) }
  | status {bytes : List UInt8} {outputClosed : Bool} {result : Except String (Option ExitStatus)} :
      s.call = some (.checking bytes outputClosed) → Steps s (.status result) { s with
        call := none, answers := s.answers ++ [answerOf bytes outputClosed result] }
  | close : s.call = none → s.isOpen = true →
      Steps s .close { s with isOpen := false, channel := [] }

theorem Terminal.steps_of_next {s s' : Terminal} {event : TerminalEvent}
    (h : terminal.next s event = some s') : s.Steps event s' := by
  cases event with
  | write bytes =>
      have h : s.write bytes = some s' := h
      unfold Terminal.write at h
      split at h
      · cases h
      · rename_i hopen
        cases h
        exact .write (Bool.not_eq_true _ ▸ hopen)
  | hangUp =>
      cases h
      exact .hangUp
  | read count =>
      have h : s.read count = some s' := h
      unfold Terminal.read at h
      split at h
      · rename_i hread
        cases h
        exact .read hread.1
      · cases h
  | readEnd =>
      have h : s.readEnd = some s' := h
      unfold Terminal.readEnd at h
      split at h
      · rename_i hread
        cases h
        exact .readEnd hread.1 hread.2.1 hread.2.2
      · cases h
  | readError =>
      have h : s.readError = some s' := h
      unfold Terminal.readError at h
      split at h
      · rename_i hread
        cases h
        exact .readError hread
      · cases h
  | send =>
      have h : s.send = some s' := h
      unfold Terminal.send at h
      split at h
      · rename_i chunk hchunk
        split at h
        · rename_i hclosed
          cases h
          exact .unwanted hchunk hclosed
        · rename_i hopen
          split at h
          · cases h
            exact .send hchunk (Bool.not_eq_false _ ▸ hopen)
          · cases h
      · cases h
  | call =>
      have h : s.beginCall = some s' := h
      unfold Terminal.beginCall at h
      split at h
      · cases h
      · rename_i hidle
        rw [not_not] at hidle
        split at h
        · rename_i hopen
          cases h
          exact .call hidle hopen
        · rename_i hclosed
          cases h
          exact .refused hidle (Bool.not_eq_true _ ▸ hclosed)
  | receive =>
      have h : s.receive = some s' := h
      unfold Terminal.receive at h
      split at h
      · cases h
      · rename_i call hcall
        split at h
        · cases h
        · rename_i next channel hnext
          cases h
          exact .receive hcall hnext
  | timeout =>
      have h : s.timeout = some s' := h
      unfold Terminal.timeout at h
      split at h
      · rename_i hwaiting
        cases h
        exact .timeout hwaiting
      · cases h
  | status result =>
      have h : s.status result = some s' := h
      unfold Terminal.status at h
      split at h
      · rename_i bytes outputClosed hcall
        cases h
        exact .status hcall
      · cases h
  | close =>
      have h : s.close = some s' := h
      unfold Terminal.close at h
      split at h
      · rename_i hidle
        cases h
        exact .close hidle.1 hidle.2
      · cases h

/-! ## What is on its way -/

/-- The data of an answer. -/
def answerData : Except NativeError PtyOutput → List UInt8
  | .ok output => output.data
  | .error _ => []

/-- The chunk that the reader thread has in its hands. -/
def Reader.chunk : Reader → List UInt8
  | .sending chunk => chunk
  | _ => []

/-- What a call has taken from the channel. -/
def ReadPty.taken : ReadPty → List UInt8
  | .draining bytes => bytes
  | .waiting => []
  | .redraining bytes => bytes
  | .checking bytes _ => bytes

namespace Terminal

/-- The concatenation of the data that was returned. -/
def returned (s : Terminal) : List UInt8 := s.answers.flatMap answerData

def taken (s : Terminal) : List UInt8 :=
  match s.call with
  | none => []
  | some call => call.taken

/-- What is behind the call. -/
def behind (s : Terminal) : List UInt8 := s.channel.flatten ++ s.reader.chunk ++ s.unread

/-- What was returned and what is on its way. -/
def flow (s : Terminal) : List UInt8 := s.returned ++ s.taken ++ s.behind

/-- A call has reported `running: false`. -/
def Reported (s : Terminal) : Prop := ∃ output, .ok output ∈ s.answers ∧ output.running = false

/-- Some bytes are lost from the middle of the flow, and some come to its end. -/
structure Moved (s s' : Terminal) (lost added : List UInt8) : Prop where
  written : s'.written = s.written ++ added
  flow : ∃ before after, s.flow = before ++ lost ++ after ∧ s'.flow = before ++ after ++ added

/-- What a step adds to the flow. -/
def added : TerminalEvent → List UInt8
  | .write bytes => bytes
  | _ => []

/-- What a step loses. -/
def lost (s : Terminal) : TerminalEvent → List UInt8
  | .send => if s.isOpen then [] else s.reader.chunk
  | .status (.error _) => s.taken
  | .close => s.channel.flatten
  | _ => []

theorem moved_of_flow {s s' : Terminal} (hwritten : s'.written = s.written)
    (hflow : s'.flow = s.flow) : Moved s s' [] [] := by
  refine ⟨by rw [hwritten, List.append_nil], s.flow, [], ?_, ?_⟩
  · rw [List.append_nil, List.append_nil]
  · rw [hflow, List.append_nil, List.append_nil]

theorem receive_taken {reader : Reader} {channel rest : List (List UInt8)} {call next : ReadPty}
    (h : call.receive reader channel = some (next, rest)) :
    next.taken ++ rest.flatten = call.taken ++ channel.flatten := by
  have hrecv : ∀ {chunk : List UInt8} {rest : List (List UInt8)},
      tryRecv reader channel = .ok (chunk, rest) → chunk ++ rest.flatten = channel.flatten := by
    intro chunk rest hchunk
    unfold tryRecv at hchunk
    split at hchunk
    · cases hchunk
      exact List.flatten_cons.symm
    · cases hchunk
    · cases hchunk
  have hdrain : ∀ {bytes more : List UInt8} {rest : List (List UInt8)},
      drain reader channel bytes = .ok (more, rest) →
        more ++ rest.flatten = bytes ++ channel.flatten := by
    intro bytes more rest hmore
    unfold drain at hmore
    split at hmore
    · split at hmore
      · rename_i chunk left hchunk
        cases hmore
        rw [List.append_assoc, hrecv hchunk]
      · cases hmore
      · cases hmore
    · cases hmore
  unfold ReadPty.receive at h
  split at h
  · split at h
    · rename_i more left hmore
      cases h
      exact hdrain hmore
    · split at h
      · rename_i hempty
        cases h
        rw [ReadPty.taken, ReadPty.taken, hempty.1]
      · cases h
        rfl
  · split at h
    · rename_i chunk left hchunk
      cases h
      exact hrecv hchunk
    · cases h
    · cases h
      rfl
  · split at h
    · rename_i more left hmore
      cases h
      exact hdrain hmore
    · cases h
      rfl
  · cases h

theorem taken_idle {s : Terminal} (h : s.call = none) : s.taken = [] := by
  rw [taken, h]

theorem taken_in {s : Terminal} {call : ReadPty} (h : s.call = some call) :
    s.taken = call.taken := by
  rw [taken, h]

theorem returned_answer (s : Terminal) (answer : Except NativeError PtyOutput) :
    (s.answers ++ [answer]).flatMap answerData = s.returned ++ answerData answer := by
  rw [List.flatMap_append, List.flatMap_singleton]
  rfl

/-- What a step makes of the flow. -/
theorem moved_step {s s' : Terminal} {event : TerminalEvent} (h : s.Steps event s') :
    Moved s s' (s.lost event) (added event) := by
  cases h with
  | @write bytes _ =>
      refine ⟨rfl, s.flow, [], ?_, ?_⟩
      · show s.flow = s.flow ++ [] ++ []
        rw [List.append_nil, List.append_nil]
      · show s.returned ++ s.taken ++ (s.channel.flatten ++ s.reader.chunk ++
          (s.unread ++ bytes)) = s.flow ++ [] ++ bytes
        rw [List.append_nil, flow, behind, List.append_assoc _ _ bytes,
          List.append_assoc _ s.unread bytes]
  | hangUp => exact moved_of_flow rfl rfl
  | @read count hreading =>
      refine moved_of_flow rfl ?_
      rw [flow, flow, behind, behind, hreading]
      show s.returned ++ s.taken ++ (s.channel.flatten ++ s.unread.take count ++
        s.unread.drop count) = s.returned ++ s.taken ++ (s.channel.flatten ++ [] ++ s.unread)
      rw [List.append_assoc s.channel.flatten, List.take_append_drop, List.append_nil]
  | readEnd hreading _ _ =>
      refine moved_of_flow rfl ?_
      rw [flow, flow, behind, behind, hreading]
      rfl
  | readError hreading =>
      refine moved_of_flow rfl ?_
      rw [flow, flow, behind, behind, hreading]
      rfl
  | unwanted hchunk hclosed =>
      refine ⟨(List.append_nil _).symm, s.returned ++ s.taken ++ s.channel.flatten, s.unread,
        ?_, ?_⟩
      · rw [lost, if_neg (by rw [hclosed]; exact Bool.false_ne_true), flow, behind,
          ← List.append_assoc, ← List.append_assoc]
      · show s.returned ++ s.taken ++ (s.channel.flatten ++ [] ++ s.unread) =
          s.returned ++ s.taken ++ s.channel.flatten ++ s.unread ++ []
        rw [List.append_nil, List.append_nil, ← List.append_assoc]
  | @send chunk hchunk hopen =>
      have hlost : s.lost .send = [] := by rw [lost, if_pos hopen]
      rw [hlost]
      refine moved_of_flow rfl ?_
      rw [flow, flow, behind, behind, hchunk]
      show s.returned ++ s.taken ++ ((s.channel ++ [chunk]).flatten ++ [] ++ s.unread) =
        s.returned ++ s.taken ++ (s.channel.flatten ++ chunk ++ s.unread)
      rw [List.flatten_append, List.flatten_singleton, List.append_nil]
  | call hidle _ =>
      refine moved_of_flow rfl ?_
      show s.returned ++ [] ++ s.behind = s.returned ++ s.taken ++ s.behind
      rw [taken_idle hidle]
  | refused _ _ =>
      refine moved_of_flow rfl ?_
      rw [flow, flow, returned, returned_answer, answerData, List.append_nil]
      rfl
  | @receive call next channel hcall hnext =>
      refine moved_of_flow rfl ?_
      show s.returned ++ next.taken ++ (channel.flatten ++ s.reader.chunk ++ s.unread) =
        s.returned ++ s.taken ++ (s.channel.flatten ++ s.reader.chunk ++ s.unread)
      rw [taken_in hcall, List.append_assoc s.returned, List.append_assoc s.returned,
        ← List.append_assoc next.taken, ← List.append_assoc next.taken, receive_taken hnext,
        ← List.append_assoc call.taken, ← List.append_assoc call.taken]
  | timeout hwaiting =>
      refine moved_of_flow rfl ?_
      show s.returned ++ [] ++ s.behind = s.returned ++ s.taken ++ s.behind
      rw [taken_in hwaiting, ReadPty.taken]
  | @status bytes outputClosed result hcall =>
      cases result with
      | error error =>
          refine ⟨(List.append_nil _).symm, s.returned, s.behind, rfl, ?_⟩
          rw [flow, returned, returned_answer]
          show s.returned ++ [] ++ [] ++ s.behind = s.returned ++ s.behind ++ []
          rw [List.append_nil, List.append_nil, List.append_nil]
      | ok exit =>
          refine moved_of_flow rfl ?_
          rw [flow, flow, returned, returned_answer, taken_in hcall]
          show s.returned ++ bytes ++ [] ++ s.behind = s.returned ++ bytes ++ s.behind
          rw [List.append_nil]
  | close _ _ =>
      refine ⟨(List.append_nil _).symm, s.returned ++ s.taken, s.reader.chunk ++ s.unread, ?_, ?_⟩
      · rw [lost, flow, behind, List.append_assoc s.channel.flatten, ← List.append_assoc]
      · show s.returned ++ s.taken ++ ([] ++ s.reader.chunk ++ s.unread) =
          s.returned ++ s.taken ++ (s.reader.chunk ++ s.unread) ++ []
        rw [List.nil_append, List.append_nil]

/-- Nothing is lost: what is returned and on its way only grows by what is written. -/
theorem Moved.kept {s s' : Terminal} {added : List UInt8} (h : Moved s s' [] added) :
    s'.flow = s.flow ++ added := by
  obtain ⟨before, after, hbefore, hafter⟩ := h.flow
  rw [hafter, hbefore, List.append_nil]

theorem Moved.length {s s' : Terminal} {lost added : List UInt8} (h : Moved s s' lost added) :
    s'.flow.length + lost.length + s.written.length = s.flow.length + s'.written.length := by
  obtain ⟨before, after, hbefore, hafter⟩ := h.flow
  rw [hbefore, hafter, h.written]
  simp only [List.length_append]
  omega

/-! ## What the end of the output means -/

/-- The reader thread has ended by itself. -/
def Ended (s : Terminal) : Prop :=
  s.reader = .ended .endOfOutput ∨ s.reader = .ended .failed

/-- What is known in every run. -/
structure Sound (s : Terminal) : Prop where
  finished : s.reader = .ended .endOfOutput → s.hungUp = true ∧ s.unread = []
  unwanted : s.reader = .ended .unwanted → s.isOpen = false
  closed : s.isOpen = false → s.call = none
  checked : ∀ bytes, s.call = some (.checking bytes true) → s.Ended ∧ s.channel = []
  reported : s.Reported → s.Ended

/-- A call learns that the output is closed from an empty channel whose sender is gone. -/
theorem receive_closed {reader : Reader} {channel rest : List (List UInt8)} {call : ReadPty}
    {bytes : List UInt8} (h : call.receive reader channel = some (.checking bytes true, rest)) :
    (∃ reason, reader = .ended reason) ∧ rest = [] := by
  have hrecv : tryRecv reader channel = .error .disconnected →
      (∃ reason, reader = .ended reason) ∧ channel = [] := by
    intro hclosed
    unfold tryRecv at hclosed
    split at hclosed
    · cases hclosed
    · exact ⟨⟨_, rfl⟩, rfl⟩
    · cases hclosed
  have hdrain : ∀ {bytes : List UInt8}, drain reader channel bytes = .error true →
      (∃ reason, reader = .ended reason) ∧ channel = [] := by
    intro bytes hclosed
    unfold drain at hclosed
    split at hclosed
    · split at hclosed
      · cases hclosed
      · cases hclosed
      · rename_i hdisconnected
        exact hrecv hdisconnected
    · cases hclosed
  unfold ReadPty.receive at h
  split at h
  · split at h
    · cases h
    · rename_i outputClosed hclosed
      split at h
      · cases h
      · cases h
        exact hdrain hclosed
  · split at h
    · cases h
    · cases h
    · rename_i hclosed
      cases h
      exact hrecv hclosed
  · split at h
    · cases h
    · rename_i outputClosed hclosed
      cases h
      exact hdrain hclosed
  · cases h

/-- The reader thread of an open session has ended by itself. -/
theorem Sound.ended {s : Terminal} (hs : s.Sound) (hopen : s.isOpen = true)
    (h : ∃ reason, s.reader = .ended reason) : s.Ended := by
  obtain ⟨reason, hreason⟩ := h
  cases reason with
  | endOfOutput => exact .inl hreason
  | failed => exact .inr hreason
  | unwanted => cases hopen.symm.trans (hs.unwanted hreason)

/-- A session with a call is open. -/
theorem Sound.isOpen {s : Terminal} (hs : s.Sound) {call : ReadPty} (hcall : s.call = some call) :
    s.isOpen = true := by
  cases hopen : s.isOpen with
  | true => rfl
  | false => cases hcall.symm.trans (hs.closed hopen)

/-- A reader thread that has not ended has a report of the end before it. -/
theorem Sound.open_call {s : Terminal} (hs : s.Sound) (hended : ¬ s.Ended) {bytes : List UInt8} :
    s.call ≠ some (.checking bytes true) :=
  fun hcall => hended (hs.checked bytes hcall).1

theorem not_ended_reading {s : Terminal} (h : s.reader = .reading) : ¬ s.Ended := by
  intro hended
  obtain hended | hended := hended
  · cases h.symm.trans hended
  · cases h.symm.trans hended

theorem not_ended_sending {s : Terminal} {chunk : List UInt8} (h : s.reader = .sending chunk) :
    ¬ s.Ended := by
  intro hended
  obtain hended | hended := hended
  · cases h.symm.trans hended
  · cases h.symm.trans hended

/-- The end of the output is reported by a call that knows of it. -/
theorem reported_answer {s : Terminal} {bytes : List UInt8} {outputClosed : Bool}
    {result : Except String (Option ExitStatus)} {s' : Terminal}
    (hanswers : s'.answers = s.answers ++ [answerOf bytes outputClosed result])
    (h : s'.Reported) : s.Reported ∨ outputClosed = true := by
  obtain ⟨output, houtput, hrunning⟩ := h
  rw [hanswers] at houtput
  obtain houtput | houtput := List.mem_append.mp houtput
  · exact .inl ⟨output, houtput, hrunning⟩
  · have houtput := List.mem_singleton.mp houtput
    cases result with
    | error error => cases houtput
    | ok exit =>
        cases houtput
        obtain ⟨-, hclosed⟩ := Bool.or_eq_false_iff.mp hrunning
        exact .inr (Bool.not_eq_false' _ ▸ hclosed)

theorem reported_refused {s s' : Terminal} {error : NativeError}
    (hanswers : s'.answers = s.answers ++ [.error error]) (h : s'.Reported) : s.Reported := by
  obtain ⟨output, houtput, hrunning⟩ := h
  rw [hanswers] at houtput
  obtain houtput | houtput := List.mem_append.mp houtput
  · exact ⟨output, houtput, hrunning⟩
  · cases List.mem_singleton.mp houtput

theorem sound_step {s s' : Terminal} {event : TerminalEvent} (hs : s.Sound)
    (h : s.Steps event s') : s'.Sound := by
  cases h with
  | write hopen =>
      refine ⟨fun hend => ?_, hs.unwanted, hs.closed, hs.checked, hs.reported⟩
      cases hopen.symm.trans (hs.finished hend).1
  | hangUp =>
      exact ⟨fun hend => ⟨rfl, (hs.finished hend).2⟩, hs.unwanted, hs.closed, hs.checked,
        hs.reported⟩
  | read hreading =>
      have hended := not_ended_reading hreading
      exact ⟨nofun, nofun, hs.closed, fun bytes hcall => absurd hcall (hs.open_call hended),
        fun hreported => absurd (hs.reported hreported) hended⟩
  | readEnd hreading hhung hunread =>
      have hended := not_ended_reading hreading
      exact ⟨fun _ => ⟨hhung, hunread⟩, nofun, hs.closed,
        fun bytes hcall => absurd hcall (hs.open_call hended), fun _ => .inl rfl⟩
  | readError hreading =>
      have hended := not_ended_reading hreading
      exact ⟨nofun, nofun, hs.closed, fun bytes hcall => absurd hcall (hs.open_call hended),
        fun _ => .inr rfl⟩
  | unwanted hchunk hclosed =>
      have hended := not_ended_sending hchunk
      exact ⟨nofun, fun _ => hclosed, hs.closed,
        fun bytes hcall => absurd hcall (hs.open_call hended),
        fun hreported => absurd (hs.reported hreported) hended⟩
  | send hchunk _ =>
      have hended := not_ended_sending hchunk
      exact ⟨nofun, nofun, hs.closed, fun bytes hcall => absurd hcall (hs.open_call hended),
        fun hreported => absurd (hs.reported hreported) hended⟩
  | call hidle hopen =>
      refine ⟨hs.finished, hs.unwanted, fun hclosed => ?_, nofun, hs.reported⟩
      cases hopen.symm.trans hclosed
  | refused _ _ =>
      exact ⟨hs.finished, hs.unwanted, hs.closed, hs.checked,
        fun hreported => hs.reported (reported_refused rfl hreported)⟩
  | receive hcall hnext =>
      have hopen := hs.isOpen hcall
      refine ⟨hs.finished, hs.unwanted, fun hclosed => ?_, fun bytes hchecking => ?_, hs.reported⟩
      · cases hopen.symm.trans hclosed
      · obtain rfl := Option.some.inj hchecking
        obtain ⟨hreader, hchannel⟩ := receive_closed hnext
        exact ⟨hs.ended hopen hreader, hchannel⟩
  | timeout hwaiting =>
      have hopen := hs.isOpen hwaiting
      refine ⟨hs.finished, hs.unwanted, fun hclosed => ?_, nofun, hs.reported⟩
      cases hopen.symm.trans hclosed
  | @status bytes outputClosed result hcall =>
      refine ⟨hs.finished, hs.unwanted, fun _ => rfl, nofun, fun hreported => ?_⟩
      obtain hreported | rfl := reported_answer rfl hreported
      · exact hs.reported hreported
      · exact (hs.checked bytes hcall).1
  | close hidle _ =>
      refine ⟨hs.finished, fun _ => rfl, fun _ => hidle, fun bytes hcall => ?_, hs.reported⟩
      cases hidle.symm.trans hcall

/-! ## Runs that keep the output -/

/-- What was returned is a prefix of what the command has written, and all of it once a call has
reported the end. -/
structure Complete (s : Terminal) : Prop where
  ordered : s.returned <+: s.written
  whole : s.Reported → s.returned = s.written

/-- A status check fails only in a call that has taken nothing, and a read fails only where nothing
is left to be read, now and later. -/
def Admitted (s : Terminal) : TerminalEvent → Prop
  | .write bytes => s.reader = .ended .failed → bytes = []
  | .readError => s.unread = []
  | .status (.error _) => s.taken = []
  | _ => True

instance (s : Terminal) (event : TerminalEvent) : Decidable (s.Admitted event) :=
  match event with
  | .write bytes => inferInstanceAs (Decidable (s.reader = .ended .failed → bytes = []))
  | .readError => inferInstanceAs (Decidable (s.unread = []))
  | .status (.error _) => inferInstanceAs (Decidable (s.taken = []))
  | .status (.ok _) => .isTrue trivial
  | .hangUp => .isTrue trivial
  | .read _ => .isTrue trivial
  | .readEnd => .isTrue trivial
  | .send => .isTrue trivial
  | .call => .isTrue trivial
  | .receive => .isTrue trivial
  | .timeout => .isTrue trivial
  | .close => .isTrue trivial

/-- What is known in a run that keeps the output. -/
structure Kept (s : Terminal) : Prop where
  flow : s.isOpen = true → s.flow = s.written
  failed : s.reader = .ended .failed → s.unread = []
  complete : s.Complete

theorem returned_ordered (s : Terminal) : s.returned <+: s.flow := by
  rw [flow, List.append_assoc]
  exact List.prefix_append _ _

/-- What was returned stays, and is all as long as no call answers. -/
theorem returned_step {s s' : Terminal} {event : TerminalEvent} (h : s.Steps event s') :
    s.returned <+: s'.returned ∧ (s.call = none → s'.returned = s.returned) := by
  cases h with
  | refused _ _ =>
      rw [returned, returned, returned_answer, answerData, List.append_nil]
      exact ⟨List.prefix_rfl, fun _ => rfl⟩
  | status hcall =>
      rw [returned, returned, returned_answer]
      refine ⟨List.prefix_append _ _, fun hidle => ?_⟩
      cases hidle.symm.trans hcall
  | write _ => exact ⟨List.prefix_rfl, fun _ => rfl⟩
  | hangUp => exact ⟨List.prefix_rfl, fun _ => rfl⟩
  | read _ => exact ⟨List.prefix_rfl, fun _ => rfl⟩
  | readEnd _ _ _ => exact ⟨List.prefix_rfl, fun _ => rfl⟩
  | readError _ => exact ⟨List.prefix_rfl, fun _ => rfl⟩
  | unwanted _ _ => exact ⟨List.prefix_rfl, fun _ => rfl⟩
  | send _ _ => exact ⟨List.prefix_rfl, fun _ => rfl⟩
  | call _ _ => exact ⟨List.prefix_rfl, fun _ => rfl⟩
  | receive _ _ => exact ⟨List.prefix_rfl, fun _ => rfl⟩
  | timeout _ => exact ⟨List.prefix_rfl, fun _ => rfl⟩
  | close _ _ => exact ⟨List.prefix_rfl, fun _ => rfl⟩

/-- What happens to the session: it is closed between two calls, or it stays as it is. -/
theorem session_step {s s' : Terminal} {event : TerminalEvent} (h : s.Steps event s') :
    (s'.isOpen = false ∧ s.call = none) ∨ (s'.isOpen = s.isOpen ∧ event ≠ .close) := by
  cases h with
  | close hidle _ => exact .inl ⟨rfl, hidle⟩
  | write _ => exact .inr ⟨rfl, nofun⟩
  | hangUp => exact .inr ⟨rfl, nofun⟩
  | read _ => exact .inr ⟨rfl, nofun⟩
  | readEnd _ _ _ => exact .inr ⟨rfl, nofun⟩
  | readError _ => exact .inr ⟨rfl, nofun⟩
  | unwanted _ _ => exact .inr ⟨rfl, nofun⟩
  | send _ _ => exact .inr ⟨rfl, nofun⟩
  | call _ _ => exact .inr ⟨rfl, nofun⟩
  | refused _ _ => exact .inr ⟨rfl, nofun⟩
  | receive _ _ => exact .inr ⟨rfl, nofun⟩
  | timeout _ => exact .inr ⟨rfl, nofun⟩
  | status _ => exact .inr ⟨rfl, nofun⟩

/-- An open session loses nothing in an admitted step. -/
theorem lost_admitted {s : Terminal} {event : TerminalEvent} (hadmitted : s.Admitted event)
    (hopen : s.isOpen = true) (hclose : event ≠ .close) : s.lost event = [] := by
  cases event with
  | send => rw [lost, if_pos hopen]
  | status result =>
      cases result with
      | error error => exact hadmitted
      | ok exit => rfl
  | close => exact absurd rfl hclose
  | write bytes => rfl
  | hangUp => rfl
  | read count => rfl
  | readEnd => rfl
  | readError => rfl
  | call => rfl
  | receive => rfl
  | timeout => rfl

/-- Once the reader thread has ended, nothing more comes. -/
theorem added_ended {s s' : Terminal} {event : TerminalEvent} (hs : s.Sound)
    (hadmitted : s.Admitted event) (hended : s.Ended) (h : s.Steps event s') :
    added event = [] := by
  cases h with
  | write hopen =>
      obtain hended | hfailed := hended
      · cases hopen.symm.trans (hs.finished hended).1
      · exact hadmitted hfailed
  | hangUp => rfl
  | read _ => rfl
  | readEnd _ _ _ => rfl
  | readError _ => rfl
  | unwanted _ _ => rfl
  | send _ _ => rfl
  | call _ _ => rfl
  | refused _ _ => rfl
  | receive _ _ => rfl
  | timeout _ => rfl
  | status _ => rfl
  | close _ _ => rfl

/-- A reader thread that has failed leaves nothing behind. -/
theorem failed_step {s s' : Terminal} {event : TerminalEvent} (hk : s.Kept)
    (hadmitted : s.Admitted event) (h : s.Steps event s') (hfailed : s'.reader = .ended .failed) :
    s'.unread = [] := by
  cases h with
  | @write bytes _ =>
      show s.unread ++ bytes = []
      rw [hk.failed hfailed, hadmitted hfailed]
      rfl
  | readError _ => exact hadmitted
  | read _ => cases hfailed
  | readEnd _ _ _ => cases hfailed
  | unwanted _ _ => cases hfailed
  | send _ _ => cases hfailed
  | hangUp => exact hk.failed hfailed
  | call _ _ => exact hk.failed hfailed
  | refused _ _ => exact hk.failed hfailed
  | receive _ _ => exact hk.failed hfailed
  | timeout _ => exact hk.failed hfailed
  | status _ => exact hk.failed hfailed
  | close _ _ => exact hk.failed hfailed

/-- The end of the output is reported for the first time when nothing is on its way. -/
theorem first_report {s s' : Terminal} {event : TerminalEvent} (hs : s.Sound)
    (h : s.Steps event s') (hbefore : ¬ s.Reported) (hafter : s'.Reported) :
    s'.isOpen = true ∧ s'.call = none ∧ s'.channel = [] := by
  cases h with
  | @status bytes outputClosed result hcall =>
      obtain hreported | rfl := reported_answer rfl hafter
      · exact absurd hreported hbefore
      · exact ⟨hs.isOpen hcall, rfl, (hs.checked bytes hcall).2⟩
  | refused _ _ => exact absurd (reported_refused rfl hafter) hbefore
  | write _ => exact absurd hafter hbefore
  | hangUp => exact absurd hafter hbefore
  | read _ => exact absurd hafter hbefore
  | readEnd _ _ _ => exact absurd hafter hbefore
  | readError _ => exact absurd hafter hbefore
  | unwanted _ _ => exact absurd hafter hbefore
  | send _ _ => exact absurd hafter hbefore
  | call _ _ => exact absurd hafter hbefore
  | receive _ _ => exact absurd hafter hbefore
  | timeout _ => exact absurd hafter hbefore
  | close _ _ => exact absurd hafter hbefore

/-- Nothing is on its way. -/
theorem flow_arrived {s : Terminal} (hended : s.Ended) (hcall : s.call = none)
    (hchannel : s.channel = []) (hunread : s.unread = []) : s.flow = s.returned := by
  have hchunk : s.reader.chunk = [] := by
    obtain hreader | hreader := hended
    · rw [hreader]
      rfl
    · rw [hreader]
      rfl
  rw [flow, behind, taken_idle hcall, hchannel, hchunk, hunread, List.flatten_nil,
    List.append_nil, List.append_nil, List.append_nil, List.append_nil]

theorem complete_step {s s' : Terminal} {event : TerminalEvent} (hs : s.Sound) (hk : s.Kept)
    (hadmitted : s.Admitted event) (h : s.Steps event s')
    (hflow : s'.isOpen = true → s'.flow = s'.written)
    (hfailed : s'.reader = .ended .failed → s'.unread = []) : s'.Complete := by
  have hwritten : s'.written = s.written ++ added event := (moved_step h).written
  have hordered : s'.returned <+: s'.written := by
    cases hopen : s'.isOpen with
    | true =>
        rw [← hflow hopen]
        exact returned_ordered s'
    | false =>
        have hidle : s.call = none := by
          obtain ⟨-, hidle⟩ | ⟨hsame, -⟩ := session_step h
          · exact hidle
          · exact hs.closed (hsame ▸ hopen)
        rw [(returned_step h).2 hidle, hwritten]
        exact hk.complete.ordered.trans (List.prefix_append _ _)
  refine ⟨hordered, fun hreported => ?_⟩
  by_cases hbefore : s.Reported
  · rw [added_ended hs hadmitted (hs.reported hbefore) h, List.append_nil] at hwritten
    rw [hwritten] at hordered ⊢
    have hreturned := (returned_step h).1
    rw [hk.complete.whole hbefore] at hreturned
    exact hordered.eq_of_length_le hreturned.length_le
  · obtain ⟨hopen, hidle, hchannel⟩ := first_report hs h hbefore hreported
    have hsound := sound_step hs h
    have hended := hsound.reported hreported
    have hunread : s'.unread = [] := by
      obtain hend | hfail := hended
      · exact (hsound.finished hend).2
      · exact hfailed hfail
    rw [← flow_arrived hended hidle hchannel hunread]
    exact hflow hopen

/-- An admitted step keeps the output. -/
theorem kept_step {s s' : Terminal} {event : TerminalEvent} (hs : s.Sound) (hk : s.Kept)
    (hadmitted : s.Admitted event) (h : s.Steps event s') : s'.Kept := by
  have hmoved := moved_step h
  have hflow : s'.isOpen = true → s'.flow = s'.written := by
    intro hopen
    obtain ⟨hclosed, -⟩ | ⟨hsame, hclose⟩ := session_step h
    · cases hopen.symm.trans hclosed
    · rw [lost_admitted hadmitted (hsame ▸ hopen) hclose] at hmoved
      rw [hmoved.kept, hmoved.written, hk.flow (hsame ▸ hopen)]
  exact ⟨hflow, failed_step hk hadmitted h, complete_step hs hk hadmitted h hflow
    (failed_step hk hadmitted h)⟩

/-! ## Runs that do not -/

/-- Nothing was lost, and a reader thread that has failed has left nothing behind. -/
structure Lossless (s : Terminal) : Prop where
  flow : s.written.length ≤ s.flow.length
  failed : s.reader = .ended .failed → s.unread = []

theorem lossless_before {s s' : Terminal} {event : TerminalEvent} (h : s.Steps event s')
    (hs' : s'.Lossless) : s.Lossless := by
  have hlength := (moved_step h).length
  have hflow := hs'.flow
  refine ⟨by omega, fun hfailed => ?_⟩
  cases h with
  | @write bytes _ => exact (List.append_eq_nil_iff.mp (hs'.failed hfailed)).1
  | hangUp => exact hs'.failed hfailed
  | read hreading => cases hfailed.symm.trans hreading
  | readEnd hreading _ _ => cases hfailed.symm.trans hreading
  | readError hreading => cases hfailed.symm.trans hreading
  | unwanted hchunk _ => cases hfailed.symm.trans hchunk
  | send hchunk _ => cases hfailed.symm.trans hchunk
  | call _ _ => exact hs'.failed hfailed
  | refused _ _ => exact hs'.failed hfailed
  | receive _ _ => exact hs'.failed hfailed
  | timeout _ => exact hs'.failed hfailed
  | status _ => exact hs'.failed hfailed
  | close _ _ => exact hs'.failed hfailed

/-- A step that is not admitted loses something. -/
theorem admitted_of_lossless {s s' : Terminal} {event : TerminalEvent}
    (hbound : s.flow.length ≤ s.written.length) (h : s.Steps event s') (hs' : s'.Lossless) :
    s.Admitted event := by
  have hlength := (moved_step h).length
  have hflow := hs'.flow
  cases h with
  | @write bytes _ =>
      intro hfailed
      exact (List.append_eq_nil_iff.mp (hs'.failed hfailed)).2
  | readError _ => exact hs'.failed rfl
  | @status bytes outputClosed result hcall =>
      cases result with
      | ok exit => trivial
      | error error =>
          have hlost : (s.lost (.status (.error error))).length = 0 := by omega
          exact List.length_eq_zero_iff.mp hlost
  | hangUp => trivial
  | read _ => trivial
  | readEnd _ _ _ => trivial
  | unwanted _ _ => trivial
  | send _ _ => trivial
  | call _ _ => trivial
  | refused _ _ => trivial
  | receive _ _ => trivial
  | timeout _ => trivial
  | close _ _ => trivial

theorem bounded_step {s s' : Terminal} {event : TerminalEvent}
    (hbound : s.flow.length ≤ s.written.length) (h : s.Steps event s') :
    s'.flow.length ≤ s'.written.length := by
  have hlength := (moved_step h).length
  omega

/-- Where all was returned, nothing was lost. -/
theorem lossless_of_returned {s : Terminal} (hbound : s.flow.length ≤ s.written.length)
    (hall : s.returned = s.written) : s.Lossless := by
  rw [flow, behind] at hbound
  simp only [List.length_append] at hbound
  rw [hall] at hbound
  refine ⟨?_, fun _ => ?_⟩
  · rw [flow, hall]
    simp only [List.length_append]
    omega
  · exact List.length_eq_zero_iff.mp (by omega)

theorem open_sound : openPty.Sound :=
  ⟨nofun, nofun, nofun, nofun, fun hreported => by
    obtain ⟨output, houtput, -⟩ := hreported
    cases houtput⟩

theorem open_kept : openPty.Kept :=
  ⟨fun _ => rfl, nofun, List.prefix_rfl, fun _ => rfl⟩

/-- The command writes a letter, which is received by the first call, and ends; the second call
reports the end. -/
def letterEvents (first : Except String (Option ExitStatus)) : List TerminalEvent :=
  [.write [97], .read 1, .send, .call, .receive, .receive, .status first, .hangUp, .readEnd,
    .call, .receive, .status (.ok (some ⟨0, none⟩))]

end Terminal

end PamDesktop.Native
