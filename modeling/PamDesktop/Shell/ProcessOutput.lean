import PamDesktop.Native.GrantStore

/-!
# Running an authorized process

`ProcessServices::execute`: the checks of a request, the two threads that drain the output pipes of
the child while it runs, and what is collected from them. What a pipe delivers from one read to the
next is arbitrary. `output_collected_iff` says that the collected text does not depend on it.
-/

namespace PamDesktop.Shell

open Foundations Protocol Native

/-! ## Draining a pipe -/

def maxIo : Nat := 1024 * 1024

/-- The bytes of one read into the buffer of `drain`; an empty read is the end of the stream. -/
structure Chunk where
  bytes : List UInt8
  some : bytes ≠ []
  fits : bytes.length ≤ 16 * 1024

/-- A pipe: its reads, and the error of the last one if it fails. -/
structure Pipe where
  reads : List Chunk
  failure : Option String

/-- All that the pipe delivers. -/
def Pipe.stream (pipe : Pipe) : List UInt8 := pipe.reads.flatMap (·.bytes)

/-- The loop of `drain`, with `kept` and `overflow`. -/
def drainReads (kept : List UInt8) (overflow : Bool) : List Chunk → List UInt8 × Bool
  | [] => (kept, overflow)
  | chunk :: reads =>
      let remaining := maxIo - kept.length
      drainReads (kept ++ chunk.bytes.take (min chunk.bytes.length remaining))
        (overflow || decide (remaining < chunk.bytes.length)) reads

/-- What the thread of `drain` returns. -/
def drain (pipe : Pipe) : Except String (List UInt8 × Bool) :=
  match pipe.failure with
  | some error => .error error
  | none => .ok (drainReads [] false pipe.reads)

def collect (thread : Except String (List UInt8 × Bool)) (label : String) :
    Except NativeError String :=
  match thread with
  | .error error => .error (.native "Cannot read process output" error)
  | .ok (bytes, overflow) =>
      if overflow then .error (.tooLarge ("Process " ++ label ++ " exceeded 1 MiB."))
      else
        match String.fromUTF8? ⟨bytes.toArray⟩ with
        | some text => .ok text
        | none => .error (.invalid ("Process " ++ label ++ " is not valid UTF-8."))

/-- Draining keeps the first bytes up to the limit and remembers whether there were more. -/
theorem drain_reads_eq (seen : List UInt8) (reads : List Chunk) :
    drainReads (seen.take maxIo) (decide (maxIo < seen.length)) reads =
      ((seen ++ reads.flatMap (·.bytes)).take maxIo,
        decide (maxIo < (seen ++ reads.flatMap (·.bytes)).length)) := by
  induction reads generalizing seen with
  | nil => simp [drainReads]
  | cons chunk reads ih =>
      have hkept : seen.take maxIo ++
          chunk.bytes.take (min chunk.bytes.length (maxIo - (seen.take maxIo).length)) =
            (seen ++ chunk.bytes).take maxIo := by
        have htaken : chunk.bytes.take (min chunk.bytes.length (maxIo - min maxIo seen.length)) =
            chunk.bytes.take (maxIo - seen.length) := by
          rw [List.take_eq_take_iff]
          omega
        rw [List.take_append, List.length_take, htaken]
      have hoverflow : (decide (maxIo < seen.length) ||
          decide (maxIo - (seen.take maxIo).length < chunk.bytes.length)) =
            decide (maxIo < (seen ++ chunk.bytes).length) := by
        have hsome := List.length_pos_of_ne_nil chunk.some
        rw [← Bool.decide_or, List.length_take, List.length_append, decide_eq_decide]
        omega
      show drainReads _ _ reads = _
      rw [hkept, hoverflow, ih (seen ++ chunk.bytes)]
      simp only [List.flatMap_cons, List.append_assoc]

/-- What is collected, as a function of the whole stream alone. -/
theorem collect_drain (pipe : Pipe) (label : String) (hread : pipe.failure = none) :
    collect (drain pipe) label =
      if maxIo < pipe.stream.length then
        .error (.tooLarge ("Process " ++ label ++ " exceeded 1 MiB."))
      else
        match String.fromUTF8? ⟨pipe.stream.toArray⟩ with
        | some text => .ok text
        | none => .error (.invalid ("Process " ++ label ++ " is not valid UTF-8.")) := by
  have hdrained : drain pipe =
      .ok (pipe.stream.take maxIo, decide (maxIo < pipe.stream.length)) := by
    rw [drain, hread]
    exact congrArg Except.ok (drain_reads_eq [] pipe.reads)
  rw [hdrained]
  by_cases hlong : maxIo < pipe.stream.length
  · simp only [collect, hlong, decide_true, if_true]
  · rw [List.take_of_length_le (Nat.le_of_not_lt hlong)]
    simp only [collect, hlong, decide_false, Bool.false_eq_true, if_false]

/-- A text is the text of some bytes exactly if they are its bytes. -/
theorem from_utf8_eq_some {bytes : List UInt8} {text : String} :
    String.fromUTF8? ⟨bytes.toArray⟩ = some text ↔ osString text = bytes := by
  constructor
  · exact os_string_from_utf8
  · rintro rfl
    exact from_utf8_os_string text

/-- The pipe delivers the text, within the limit. -/
structure Pipe.Delivers (pipe : Pipe) (text : String) : Prop where
  read : pipe.failure = none
  fits : pipe.stream.length ≤ maxIo
  bytes : osString text = pipe.stream

theorem collect_eq_ok_iff (pipe : Pipe) (label text : String) :
    collect (drain pipe) label = .ok text ↔ pipe.Delivers text := by
  cases hread : pipe.failure with
  | some error =>
      constructor
      · intro h
        simp [drain, hread, collect] at h
      · intro h
        cases hread.symm.trans h.read
  | none =>
      rw [collect_drain pipe label hread]
      split
      · rename_i hlong
        constructor
        · intro h
          cases h
        · intro h
          exact absurd h.fits (Nat.not_le.mpr hlong)
      · rename_i hshort
        have hfits : pipe.stream.length ≤ maxIo := Nat.le_of_not_lt hshort
        cases hutf8 : String.fromUTF8? ⟨pipe.stream.toArray⟩ with
        | none =>
            constructor
            · intro h
              cases h
            · intro h
              cases hutf8.symm.trans (from_utf8_eq_some.mpr h.bytes)
        | some collected =>
            constructor
            · intro h
              cases h
              exact ⟨hread, hfits, from_utf8_eq_some.mp hutf8⟩
            · intro h
              rw [Option.some.inj (hutf8.symm.trans (from_utf8_eq_some.mpr h.bytes))]

/-- However the stream is cut into reads, the collected text is the whole stream, and it is
collected exactly if the stream has at most a mebibyte and is the bytes of a text. -/
theorem output_collected_iff (reads : List Chunk) (label text : String) :
    collect (drain ⟨reads, none⟩) label = .ok text ↔
      (Pipe.stream ⟨reads, none⟩).length ≤ 1048576 ∧
        osString text = Pipe.stream ⟨reads, none⟩ := by
  rw [collect_eq_ok_iff]
  constructor
  · intro h
    exact ⟨h.fits, h.bytes⟩
  · intro h
    exact ⟨rfl, h.1, h.2⟩

/-! ## Executing a request -/

/-- An operation that the manifest authorizes. -/
structure AllowedCommand where
  executable : OsString
  arguments : List String
  policy : ProcessArgumentPolicy

/-- The fields of a request that `execute` reads. -/
structure ProcessRequest where
  command : String
  arguments : List String
  stdin : String
  timeoutMs : Nat

structure ProcessResponse where
  success : Bool
  exitCode : Option Int
  stdout : String
  stderr : String

/-- What becomes of the child: the deadline passes, or it exits, and then its standard input was
written or not. -/
inductive ChildEnd where
  | overdue
  | exited (success : Bool) (code : Option Int) (input : Except String Unit) (stdout stderr : Pipe)

/-- The checks of `execute` on a request, in their order. -/
def checkRequest (commands : String → Option AllowedCommand) (request : ProcessRequest) :
    Except NativeError AllowedCommand :=
  match commands request.command with
  | none => .error (.permission "The requested process command is not authorized.")
  | some allowed =>
      if request.timeoutMs < minCommandTimeoutMs ∨ maxCommandTimeoutMs < request.timeoutMs then
        .error (.invalid "Process timeout is outside the supported range.")
      else if 32 < request.arguments.length ∨
          request.arguments.any (fun value => decide (1024 < value.utf8ByteSize) ||
            value.toList.contains (Char.ofNat 0)) then
        .error (.invalid "Dynamic process arguments are invalid.")
      else if allowed.policy = .fixed ∧ request.arguments ≠ [] then
        .error (.permission "This process command does not allow dynamic arguments.")
      else if maxIo < request.stdin.utf8ByteSize then
        .error (.tooLarge "Process stdin cannot exceed 1 MiB.")
      else .ok allowed

/-- `execute` once the child has been waited for. -/
def respond (request : ProcessRequest) : ChildEnd → Except NativeError ProcessResponse
  | .overdue => .error (.native "Authorized process timed out" (toString request.timeoutMs))
  | .exited success code input stdout stderr =>
      match input with
      | .error error => .error (.native "Cannot write process stdin" error)
      | .ok () => do
          let stdout ← collect (drain stdout) "stdout"
          let stderr ← collect (drain stderr) "stderr"
          return ⟨success, code, stdout, stderr⟩

/-- `ProcessServices::execute`; `spawn` starts the executable with its configured arguments and
those of the request. -/
def execute (commands : String → Option AllowedCommand)
    (spawn : OsString → List String → String → Except String ChildEnd)
    (request : ProcessRequest) : Except NativeError ProcessResponse := do
  let allowed ← checkRequest commands request
  match spawn allowed.executable (allowed.arguments ++ request.arguments) request.stdin with
  | .error error => .error (.native "Cannot start the authorized process" error)
  | .ok child => respond request child

/-- A response is what an authorized child left: it could be started, its input was written, it
exited in time, and both texts are all that its pipes delivered. -/
theorem execute_eq_ok_iff (commands : String → Option AllowedCommand)
    (spawn : OsString → List String → String → Except String ChildEnd) (request : ProcessRequest)
    (response : ProcessResponse) :
    execute commands spawn request = .ok response ↔
      ∃ allowed stdout stderr, checkRequest commands request = .ok allowed ∧
        spawn allowed.executable (allowed.arguments ++ request.arguments) request.stdin =
          .ok (.exited response.success response.exitCode (.ok ()) stdout stderr) ∧
        stdout.Delivers response.stdout ∧ stderr.Delivers response.stderr := by
  constructor
  · intro h
    rw [execute] at h
    cases hcheck : checkRequest commands request with
    | error refusal =>
        rw [hcheck] at h
        cases h
    | ok allowed =>
        simp only [hcheck, bind, Except.bind] at h
        split at h
        · cases h
        · rename_i child hspawn
          cases child with
          | overdue => cases h
          | exited success code input stdout stderr =>
              cases input with
              | error error => cases h
              | ok written =>
                  simp only [respond, bind, Except.bind, pure, Except.pure] at h
                  split at h
                  · cases h
                  · rename_i outText hout
                    split at h
                    · cases h
                    · rename_i errText herr
                      cases h
                      exact ⟨allowed, stdout, stderr, rfl, hspawn,
                        (collect_eq_ok_iff ..).mp hout, (collect_eq_ok_iff ..).mp herr⟩
  · rintro ⟨allowed, stdout, stderr, hcheck, hspawn, hout, herr⟩
    simp only [execute, hcheck, bind, Except.bind, hspawn, respond,
      (collect_eq_ok_iff stdout "stdout" _).mpr hout,
      (collect_eq_ok_iff stderr "stderr" _).mpr herr, pure, Except.pure]

end PamDesktop.Shell
