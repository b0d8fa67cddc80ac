import PamDesktop.Foundations.Lines
import PamDesktop.Protocol.Envelope

/-!
# JSON lines on the pipes of a worker

Every message is an encoding followed by a newline. The writers (`WorkerClient::request`,
`PluginClient::request` and the plugin SDK) measure the encoding without the newline, the readers
(the two reader threads, the SDK and `Application::handleLine`) measure the line with it.
`limits_agree_iff` says for which encodings the two ends agree.
-/

namespace PamDesktop.Worker

open Foundations Protocol

/-- `MAX_MESSAGE_BYTES`, the same in the protocol crate and in `Application`. -/
def maxMessageBytes : Nat := 1024 * 1024

/-- The byte `\n`. -/
def newline : UInt8 := 10

/-- `WorkerRequestError`. -/
inductive WorkerRequestError where
  | timedOut
  | cancelled
  | crashed (message : String)
deriving DecidableEq

/-- `PluginError`. -/
structure PluginError where
  code : ErrorCode
  message : String
deriving DecidableEq

/-! ## Writers -/

/-- What is written for an encoding, unless it is over the limit. -/
def frame {ε : Type} (refusal : ε) (encoded : List UInt8) : Except ε (List UInt8) :=
  if maxMessageBytes < encoded.length then .error refusal else .ok (encoded ++ [newline])

/-- The check and the bytes of `WorkerClient::request`. -/
def frameWorkerRequest : List UInt8 → Except WorkerRequestError (List UInt8) :=
  frame (.crashed "worker request exceeds the one-megabyte limit")

/-- The check and the bytes of `PluginClient::request`. -/
def framePluginRequest : List UInt8 → Except PluginError (List UInt8) :=
  frame ⟨.resourceTooLarge, "Rust plugin request exceeds the one-megabyte limit."⟩

/-- The check and the bytes of a response in `serve_with_io`. -/
def framePluginResponse : List UInt8 → Except String (List UInt8) :=
  frame "plugin response exceeds the one-megabyte limit"

/-! ## Readers -/

/-- What a turn of a reader in Rust comes to. -/
inductive Received where
  | unreadable
  | closed
  | oversized
  | line (text : String)
deriving DecidableEq

/-- `take(MAX_MESSAGE_BYTES + 1).read_line` and the checks on the bytes it returned. -/
def receive (stream : List UInt8) : Received × List UInt8 :=
  let read := readUntil newline (maxMessageBytes + 1) stream
  match String.fromUTF8? ⟨read.1.toArray⟩ with
  | none => (.unreadable, read.2)
  | some text =>
      if read.1 = [] then (.closed, read.2)
      else if maxMessageBytes < read.1.length ∨ read.1.getLast? ≠ some newline then
        (.oversized, read.2)
      else (.line text, read.2)

/-- The message of `read_line` for bytes that are no text. -/
def invalidUtf8 : String := "stream did not contain valid UTF-8"

/-- A turn of the reader thread of `WorkerClient::spawn`. -/
def receiveFromWorker (stream : List UInt8) : Except String String × List UInt8 :=
  match receive stream with
  | (.unreadable, rest) => (.error ("cannot read from PHP worker: " ++ invalidUtf8), rest)
  | (.closed, rest) => (.error "PHP worker exited before replying", rest)
  | (.oversized, rest) =>
      (.error "PHP worker response exceeds the limit or is incomplete", rest)
  | (.line text, rest) => (.ok text, rest)

/-- A turn of the reader thread of `PluginClient::spawn`. -/
def receiveFromPlugin (stream : List UInt8) : Except String String × List UInt8 :=
  match receive stream with
  | (.unreadable, rest) => (.error ("cannot read from Rust plugin: " ++ invalidUtf8), rest)
  | (.closed, rest) => (.error "Rust plugin exited before replying", rest)
  | (.oversized, rest) =>
      (.error "Rust plugin response exceeds the limit or is incomplete", rest)
  | (.line text, rest) => (.ok text, rest)

/-- A turn of `serve_with_io`, which ends without an error when its input does. -/
def receiveFromHost (stream : List UInt8) : Except String (Option String) × List UInt8 :=
  match receive stream with
  | (.unreadable, rest) => (.error ("cannot read plugin request: " ++ invalidUtf8), rest)
  | (.closed, rest) => (.ok none, rest)
  | (.oversized, rest) =>
      (.error "plugin request exceeds the one-megabyte limit or is incomplete", rest)
  | (.line text, rest) => (.ok (some text), rest)

/-- `fgets`: at most `length - 1` bytes, and `false` at the end of the stream. -/
def fgets (length : Nat) (stream : List UInt8) : Option (List UInt8) × List UInt8 :=
  let read := readUntil newline (length - 1) stream
  (if read.1 = [] then none else some read.1, read.2)

/-- The line that a turn of `Application::run` handles. -/
def runLine (stream : List UInt8) : Option (List UInt8) × List UInt8 :=
  fgets (maxMessageBytes + 2) stream

/-- The first check of `Application::handleLine`. It answers under the identifier 0. -/
def handleLineLength (line : List UInt8) : Except ProtocolError Unit :=
  if maxMessageBytes < line.length then
    .error ⟨.invalidMessage, "The IPC message exceeds the one-megabyte limit."⟩
  else .ok ()

/-! ## Where the two ends agree -/

/-- Whatever one end agrees to write, the other end takes for a line, wherever it stands in the
stream. -/
structure LimitsAgree (encoded : List UInt8) : Prop where
  workerRequest : ∀ bytes rest, frameWorkerRequest encoded = .ok bytes →
    ∃ line, runLine (bytes ++ rest) = (some line, rest) ∧ handleLineLength line = .ok ()
  pluginRequest : ∀ bytes rest, framePluginRequest encoded = .ok bytes →
    ∃ text, receiveFromHost (bytes ++ rest) = (.ok (some text), rest)
  pluginResponse : ∀ bytes rest, framePluginResponse encoded = .ok bytes →
    ∃ text, receiveFromPlugin (bytes ++ rest) = (.ok text, rest)

/-- An encoding is framed exactly when it is within the limit. -/
theorem frame_eq_ok {ε : Type} {refusal : ε} {encoded bytes : List UInt8} :
    frame refusal encoded = .ok bytes ↔
      encoded.length ≤ maxMessageBytes ∧ bytes = encoded ++ [newline] := by
  unfold frame
  split
  · constructor
    · intro h
      cases h
    · intro h
      omega
  · constructor
    · intro h
      cases h
      exact ⟨by omega, rfl⟩
    · intro h
      rw [h.2]

/-- A text and its newline are the bytes of a text. -/
theorem from_utf8_line (text : String) :
    String.fromUTF8? ⟨(osString text ++ [newline]).toArray⟩ = some (text ++ "\n") := by
  rw [← from_utf8_os_string (text ++ "\n"), os_string_append]
  rfl

/-- A Rust reader takes a line that is shorter than the limit. -/
theorem receive_line {text : String} (htext : newline ∉ osString text)
    (hlength : (osString text).length < maxMessageBytes) (rest : List UInt8) :
    receive (osString text ++ newline :: rest) = (.line (text ++ "\n"), rest) := by
  have hread := readUntil_line htext (maxMessageBytes + 1) (by omega) rest
  have hfits : ¬ (maxMessageBytes < (osString text ++ [newline]).length ∨
      (osString text ++ [newline]).getLast? ≠ some newline) := by
    rw [List.length_append, List.length_singleton, List.getLast?_concat]
    intro h
    rcases h with h | h
    · omega
    · exact h rfl
  simp only [receive, hread, from_utf8_line]
  rw [if_neg (by simp), if_neg hfits]

/-- It refuses a line that is as long as the limit: with the newline it is over. -/
theorem receive_limit {text : String} (htext : newline ∉ osString text)
    (hlength : (osString text).length = maxMessageBytes) (rest : List UInt8) :
    receive (osString text ++ newline :: rest) = (.oversized, rest) := by
  have hread := readUntil_line htext (maxMessageBytes + 1) (by omega) rest
  have hlong : maxMessageBytes < (osString text ++ [newline]).length := by
    rw [List.length_append, List.length_singleton]
    omega
  simp only [receive, hread, from_utf8_line]
  rw [if_neg (by simp), if_pos (.inl hlong)]

/-- The host takes a line of the PHP worker exactly when it is shorter than the limit. -/
theorem receive_from_worker_iff {text : String} (htext : newline ∉ osString text)
    (rest : List UInt8) :
    receiveFromWorker (osString text ++ newline :: rest) = (.ok (text ++ "\n"), rest) ↔
      (osString text).length < maxMessageBytes := by
  constructor
  · intro hok
    by_contra hlong
    by_cases hlimit : (osString text).length = maxMessageBytes
    · rw [receiveFromWorker, receive_limit htext hlimit rest] at hok
      cases hok
    · have hover : maxMessageBytes + 1 ≤ (osString text).length := by omega
      have hread := readUntil_long htext hover (newline :: rest)
      have htaken : ((osString text).take (maxMessageBytes + 1)).length = maxMessageBytes + 1 :=
        List.length_take_of_le (by omega)
      unfold receiveFromWorker receive at hok
      simp only [hread] at hok
      cases hutf8 : String.fromUTF8? ⟨((osString text).take (maxMessageBytes + 1)).toArray⟩ with
      | none =>
          rw [hutf8] at hok
          cases hok
      | some taken =>
          rw [hutf8] at hok
          dsimp only at hok
          rw [if_neg (List.ne_nil_of_length_pos (by omega)), if_pos (.inl (by omega))] at hok
          cases hok
  · intro hlength
    rw [receiveFromWorker, receive_line htext hlength]

/-- The PHP worker reads every line within the limit whole. -/
theorem run_line {line : List UInt8} (hline : newline ∉ line)
    (hlength : line.length ≤ maxMessageBytes) (rest : List UInt8) :
    runLine (line ++ newline :: rest) = (some (line ++ [newline]), rest) := by
  have hread := readUntil_line hline (maxMessageBytes + 1) (by omega) rest
  simp only [runLine, fgets]
  rw [show maxMessageBytes + 2 - 1 = maxMessageBytes + 1 from rfl, hread]
  simp

/-- It handles the line when the encoding is shorter than the limit. -/
theorem handle_line_length {line : List UInt8} :
    handleLineLength (line ++ [newline]) = .ok () ↔ line.length < maxMessageBytes := by
  unfold handleLineLength
  rw [List.length_append, List.length_singleton]
  split
  · constructor
    · intro h
      cases h
    · intro h
      omega
  · constructor
    · intro h
      omega
    · intro h
      rfl

/-- Shorter encodings pass at both ends, and longer ones are never written. -/
theorem limits_agree {text : String} (htext : newline ∉ osString text)
    (hlength : (osString text).length ≠ maxMessageBytes) : LimitsAgree (osString text) := by
  have hwritten : ∀ {ε : Type} {refusal : ε} {bytes : List UInt8} (rest : List UInt8),
      frame refusal (osString text) = .ok bytes →
        (osString text).length < maxMessageBytes ∧
          bytes ++ rest = osString text ++ newline :: rest := by
    intro ε refusal bytes rest hframe
    obtain ⟨hlimit, rfl⟩ := frame_eq_ok.mp hframe
    exact ⟨by omega, by rw [List.append_assoc]; rfl⟩
  constructor
  case workerRequest =>
    intro bytes rest hframe
    obtain ⟨hshort, hbytes⟩ := hwritten rest hframe
    rw [hbytes]
    exact ⟨_, run_line htext (by omega) rest, handle_line_length.mpr hshort⟩
  case pluginRequest =>
    intro bytes rest hframe
    obtain ⟨hshort, hbytes⟩ := hwritten rest hframe
    rw [hbytes]
    exact ⟨text ++ "\n", by rw [receiveFromHost, receive_line htext hshort]⟩
  case pluginResponse =>
    intro bytes rest hframe
    obtain ⟨hshort, hbytes⟩ := hwritten rest hframe
    rw [hbytes]
    exact ⟨text ++ "\n", by rw [receiveFromPlugin, receive_line htext hshort]⟩

/-- At the limit each end writes what the other end refuses. -/
theorem limit_refused {text : String} (htext : newline ∉ osString text)
    (hlength : (osString text).length = maxMessageBytes) (rest : List UInt8) :
    (∃ line, runLine (osString text ++ newline :: rest) = (some line, rest) ∧
        handleLineLength line ≠ .ok ()) ∧
      (∃ error, receiveFromHost (osString text ++ newline :: rest) = (.error error, rest)) ∧
      ∃ error, receiveFromPlugin (osString text ++ newline :: rest) = (.error error, rest) := by
  have hoversized := receive_limit htext hlength rest
  refine ⟨⟨osString text ++ [newline], run_line htext (by omega) rest, ?_⟩, ?_, ?_⟩
  · rw [ne_eq, handle_line_length]
    omega
  · exact ⟨"plugin request exceeds the one-megabyte limit or is incomplete",
      by rw [receiveFromHost, hoversized]⟩
  · exact ⟨"Rust plugin response exceeds the limit or is incomplete",
      by rw [receiveFromPlugin, hoversized]⟩

/-- So the limits do not agree there. -/
theorem limits_disagree {text : String} (htext : newline ∉ osString text)
    (hlength : (osString text).length = maxMessageBytes) : ¬ LimitsAgree (osString text) := by
  intro hagree
  obtain ⟨line, hrun, hhandle⟩ := hagree.workerRequest (osString text ++ [newline]) []
    (frame_eq_ok.mpr ⟨Nat.le_of_eq hlength, rfl⟩)
  obtain ⟨⟨line', hrun', hrefused⟩, -, -⟩ := limit_refused htext hlength []
  rw [List.append_nil, hrun'] at hrun
  obtain rfl : line' = line := by simpa using congrArg Prod.fst hrun
  exact hrefused hhandle

/-- The ends of the three pipes agree on every encoding but those of exactly the limit. -/
theorem limits_agree_iff (text : String) (htext : newline ∉ osString text) :
    LimitsAgree (osString text) ↔ (osString text).length ≠ maxMessageBytes := by
  constructor
  · intro hagree hlength
    exact limits_disagree htext hlength hagree
  · intro hlength
    exact limits_agree htext hlength

/-! ## A request of the notes application -/

/-- The request up to the text of the note. -/
def notesRequestHead : String :=
  "\x7b\"version\":6,\"id\":2,\"kind\":1,\"command\":\"notes.save\",\"windowId\":\"main\"," ++
    "\"payload\":\""

/-- A request to save a note of so many letters. -/
def notesRequest (letters : Nat) : String :=
  notesRequestHead ++ String.ofList (List.replicate letters 'a') ++ "\"\x7d"

/-- The bytes of the note. -/
theorem os_string_letters (letters : Nat) :
    osString (String.ofList (List.replicate letters 'a')) = List.replicate letters 97 := by
  have hletter : String.utf8EncodeChar 'a' = [97] := by decide
  have hbytes : ∀ n, (List.replicate n 'a').flatMap String.utf8EncodeChar =
      List.replicate n 97 := by
    intro n
    induction n with
    | zero => rfl
    | succ n ih =>
        rw [List.replicate_succ, List.flatMap_cons, hletter, ih]
        rfl
  rw [os_string_of_list, hbytes]

theorem notes_request_length (letters : Nat) :
    (osString (notesRequest letters)).length = 83 + letters := by
  rw [notesRequest, os_string_append, os_string_append, os_string_letters]
  have hhead : (osString notesRequestHead).length = 81 := by decide
  have hend : (osString "\"\x7d").length = 2 := by decide
  simp only [List.length_append, List.length_replicate]
  omega

theorem notes_request_line (letters : Nat) : newline ∉ osString (notesRequest letters) := by
  rw [notesRequest, os_string_append, os_string_append, os_string_letters]
  have hhead : newline ∉ osString notesRequestHead := by decide
  have hend : newline ∉ osString "\"\x7d" := by decide
  intro h
  rcases List.mem_append.mp h with h | h
  · rcases List.mem_append.mp h with h | h
    · exact hhead h
    · exact absurd (List.eq_of_mem_replicate h) (by decide)
  · exact hend h

/-- A short note can be saved. -/
theorem notes_request_agrees : LimitsAgree (osString (notesRequest 3)) :=
  (limits_agree_iff (notesRequest 3) (notes_request_line 3)).mpr
    (by rw [notes_request_length]; decide)

/-- The host sends a request of exactly the limit, and the worker refuses it. -/
theorem longest_request_refused :
    ¬ LimitsAgree (osString (notesRequest (maxMessageBytes - 83))) := by
  apply limits_disagree (notes_request_line _)
  rw [notes_request_length]
  decide

end PamDesktop.Worker
