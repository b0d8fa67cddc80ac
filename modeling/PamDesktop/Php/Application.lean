import PamDesktop.Php.JsonEncode
import PamDesktop.Protocol.Wire
import PamDesktop.Worker.Framing

/-!
# The read loop of the worker

`Application::run` handles a line and prints what `json_encode` makes of the answer, outside of the
`try` that guards the handler. `answered_iff` says for which outcomes of a handler the host receives
an answer. What a handler does to the state of the application is a parameter of the model.
-/

namespace PamDesktop.Php.Serving

open Foundations Protocol Worker

/-! ## What handlers receive and return -/

/-- The pattern of `Identifier::assert`; its `$` also matches before a newline at the end. -/
def isIdentifier : List Char → Bool
  | [] => false
  | first :: rest =>
      let body := if rest.getLast? = some '\n' then rest.dropLast else rest
      isAsciiAlphabetic first && body.length ≤ 63 &&
        body.all fun c => isAsciiAlphanumeric c || ['.', '_', '-'].contains c

/-- A text that `Identifier::assert` accepts. -/
structure Identifier where
  text : String
  valid : isIdentifier text.toList = true

/-- `Effect`. -/
structure Effect where
  kind : EffectKind
  windowId : Identifier
  payload : Entries

/-- `ClientEvent`. -/
structure ClientEvent where
  name : Identifier
  payload : PhpValue
  windowId : Option Identifier

/-- `CommandContext`, `EventContext` and `JobContext`. -/
inductive Context where
  | command (id : Int) (name windowId : List UInt8) (payload : PhpValue)
  | event (id : Int) (name windowId : List UInt8) (payload : PhpValue)
  | job (requestId : Int) (id : List UInt8) (runId startedAtMilliseconds : Int)

/-- A handler returns a value or a `CommandResult`, or it throws. -/
inductive Outcome where
  | returned (value : PhpValue)
  | result (payload : PhpValue) (effects : List Effect) (events : List ClientEvent)
  | thrown (message : List UInt8)

/-- A handler, which may change the state of the application. -/
abbrev Handler (σ : Type) := Context → σ → Outcome × σ

/-- What is registered. `bootPayload` is the answer to the boot command. -/
structure Application (σ : Type) where
  windows : List (List UInt8)
  bootPayload : PhpValue
  commands : List UInt8 → Option (Handler σ)
  eventHandlers : List UInt8 → Option (Handler σ)
  jobHandlers : List UInt8 → Option (Handler σ)

/-! ## Responses -/

/-- An array with names for keys. -/
def named (members : List (String × PhpValue)) : PhpValue :=
  .array (members.map fun member => (.string (osString member.1), member.2))

/-- A list. -/
def phpList (values : List PhpValue) : PhpValue :=
  .array (values.zipIdx.map fun entry => (.int entry.2, entry.1))

/-- A text. -/
def phpText (text : String) : PhpValue := .string (osString text)

/-- `Effect::toArray`. -/
def Effect.toArray (effect : Effect) : PhpValue :=
  named [("kind", .int (effect.kind.ctorIdx + 1)), ("windowId", phpText effect.windowId.text),
    ("payload", .array effect.payload)]

/-- `ClientEvent::toArray`. -/
def ClientEvent.toArray (event : ClientEvent) : PhpValue :=
  named ([("name", phpText event.name.text), ("payload", event.payload)] ++
    (event.windowId.map fun windowId => ("windowId", phpText windowId.text)).toList)

/-- The members that every response starts with. -/
def responseHead (id : Int) (status : ResponseStatus) : List (String × PhpValue) :=
  [("version", .int protocolVersion), ("id", .int id),
    ("kind", .int (MessageKind.response.ctorIdx + 1)), ("status", .int (status.ctorIdx + 1))]

/-- `Application::success`. -/
def success (id : Int) (payload : PhpValue) (effects : List Effect) (events : List ClientEvent) :
    PhpValue :=
  named (responseHead id .success ++ [("payload", payload),
    ("effects", phpList (effects.map Effect.toArray)),
    ("events", phpList (events.map ClientEvent.toArray))])

/-- The message that an empty one stands for. -/
def failureMessage (message : List UInt8) : List UInt8 :=
  if message = [] then osString "The PHP handler failed without an error message." else message

/-- `Application::failure`. -/
def failure (id : Int) (code : ErrorCode) (message : List UInt8) : PhpValue :=
  named (responseHead id .failure ++ [("payload", .null), ("effects", phpList []),
    ("events", phpList []),
    ("error", named [("code", .int code.number), ("message", .string (failureMessage message))])])

/-! ## Requests -/

/-- The value, where it is an integer. -/
def intOf : Option PhpValue → Option Int
  | some (.int value) => some value
  | _ => none

/-- The value, where it is a string. -/
def stringOf : Option PhpValue → Option (List UInt8)
  | some (.string bytes) => some bytes
  | _ => none

section Requests

variable {σ : Type}

/-- `Application::invoke`. -/
def invoke (id : Int) (handler : Handler σ) (context : Context) (state : σ) : PhpValue × σ :=
  match handler context state with
  | (.thrown message, state) => (failure id .handlerFailed message, state)
  | (.returned value, state) => (success id value [] [], state)
  | (.result payload effects events, state) => (success id payload effects events, state)

variable (app : Application σ)

/-- `Application::dispatchEvent`. -/
def dispatchEvent (id : Int) (windowId : List UInt8) (payload : PhpValue) (state : σ) :
    PhpValue × σ :=
  let refused := (failure id .invalidPayload (osString "The event envelope is invalid."), state)
  match payload with
  | .array entries =>
      match stringOf (entryNamed entries "name") with
      | none => refused
      | some name =>
          match app.eventHandlers name with
          | none =>
              (failure id .unknownEvent
                (osString "The event " ++ name ++ osString " has no registered handler."), state)
          | some handler =>
              invoke id handler
                (.event id name windowId ((entryNamed entries "payload").getD .null)) state
  | _ => refused

/-- `Application::dispatchJob`. -/
def dispatchJob (id : Int) (payload : PhpValue) (state : σ) : PhpValue × σ :=
  let refused :=
    (failure id .invalidPayload (osString "The background job envelope is invalid."), state)
  match payload with
  | .array entries =>
      match stringOf (entryNamed entries "id"), intOf (entryNamed entries "runId"),
          intOf (entryNamed entries "startedAtMs") with
      | some jobId, some runId, some startedAt =>
          match app.jobHandlers jobId with
          | none =>
              (failure id .backgroundJobFailed
                (osString "Background job " ++ jobId ++ osString " has no registered handler."),
                state)
          | some handler => invoke id handler (.job id jobId runId startedAt) state
      | _, _, _ => refused
  | _ => refused

/-- The identifier of a message, or 0. -/
def messageId (message : Entries) : Int :=
  match intOf (entryNamed message "id") with
  | some value => if 0 < value then value else 0
  | none => 0

/-- `EVENT_COMMAND`. -/
def eventCommand : String := "@pam/event"

/-- `JOB_COMMAND`. -/
def jobCommand : String := "@pam/job"

/-- The last part of `Application::dispatch`, once the envelope is accepted. -/
def dispatchCommand (id : Int) (windowId command : List UInt8) (payload : PhpValue) (state : σ) :
    PhpValue × σ :=
  if command = osString bootCommand then (success id app.bootPayload [] [], state)
  else if command = osString eventCommand then dispatchEvent app id windowId payload state
  else if command = osString jobCommand then dispatchJob app id payload state
  else
    match app.commands command with
    | none =>
        (failure id .unknownCommand
          (osString "The command " ++ command ++ osString " is not registered."), state)
    | some handler => invoke id handler (.command id command windowId payload) state

/-- `Application::dispatch`. -/
def dispatch (message : Entries) (state : σ) : PhpValue × σ :=
  let id := messageId message
  let refused (text : String) := (failure id .invalidMessage (osString text), state)
  if intOf (entryNamed message "version") ≠ some (protocolVersion : Int) then
    (failure id .unsupportedProtocol
      (osString "The host and PHP worker use incompatible protocol versions."), state)
  else if intOf (entryNamed message "kind") ≠ some ((MessageKind.request.ctorIdx : Int) + 1) ∨
      id = 0 then
    refused "The IPC request envelope is invalid."
  else
    match stringOf (entryNamed message "windowId") with
    | none => refused "The source window is invalid."
    | some windowId =>
        if app.windows.contains windowId then
          match stringOf (entryNamed message "command") with
          | none | some [] => refused "The IPC command is missing."
          | some command =>
              dispatchCommand app id windowId command ((entryNamed message "payload").getD .null)
                state
        else refused "The source window is invalid."

/-- `is_string` of a key. -/
def isStringKey : PhpKey → Bool
  | .string _ => true
  | .int _ => false

variable (decode : List UInt8 → Option PhpValue)

/-- `Application::handleLine`, with `json_decode` as `decode`. -/
def handleLine (line : List UInt8) (state : σ) : PhpValue × σ :=
  let refused (text : String) := (failure 0 .invalidMessage (osString text), state)
  match handleLineLength line with
  | .error error => (failure 0 error.code (osString error.message), state)
  | .ok () =>
      match decode line with
      | none => refused "The IPC message is not valid JSON."
      | some (.array message) =>
          if message.all fun entry => isStringKey entry.1 then dispatch app message state
          else refused "The IPC message must be a JSON object."
      | some _ => refused "The IPC message must be an object."

/-- What a turn of the loop comes to: the input is at its end, an exception leaves `run`, or a line
is written. -/
inductive Turn (σ : Type) where
  | ended
  | died
  | wrote (output : List UInt8) (state : σ) (rest : List UInt8)

variable (floatText : PhpFloat → String)

/-- A turn of the loop of `Application::run`. -/
def runTurn (input : List UInt8) (state : σ) : Turn σ :=
  match runLine input with
  | (none, _) => .ended
  | (some line, rest) =>
      let (response, state) := handleLine app decode line state
      match jsonEncode floatText 0 response with
      | none => .died
      | some json => .wrote (textBytes (jsonText json) ++ [newline]) state rest

end Requests

/-! ## Well-formed requests -/

section Statement

variable {σ : Type}

/-- The entries of a request, as `RequestEnvelope::for_window` makes them. -/
structure Request (app : Application σ) (message : Entries) (id : UInt64)
    (windowId command : List UInt8) (payload : PhpValue) : Prop where
  named : ∀ entry ∈ message, isStringKey entry.1 = true
  current : intOf (entryNamed message "version") = some (protocolVersion : Int)
  numbered : intOf (entryNamed message "id") = some (id.toNat : Int)
  positive : 0 < id.toNat
  asked : intOf (entryNamed message "kind") = some ((MessageKind.request.ctorIdx : Int) + 1)
  placed : stringOf (entryNamed message "windowId") = some windowId
  known : windowId ∈ app.windows
  addressed : stringOf (entryNamed message "command") = some command
  nonempty : command ≠ []
  loaded : (entryNamed message "payload").getD .null = payload

/-- The command is there for a registered handler, which receives this context. -/
inductive Addresses (app : Application σ) (id : UInt64) (windowId : List UInt8) :
    List UInt8 → PhpValue → Handler σ → Context → Prop
  | command {command : List UInt8} {payload : PhpValue} {handler : Handler σ}
      (hboot : command ≠ osString bootCommand) (hevent : command ≠ osString eventCommand)
      (hjob : command ≠ osString jobCommand) (hhandler : app.commands command = some handler) :
      Addresses app id windowId command payload handler
        (.command id.toNat command windowId payload)
  | event {entries : Entries} {name : List UInt8} {handler : Handler σ}
      (hname : stringOf (entryNamed entries "name") = some name)
      (hhandler : app.eventHandlers name = some handler) :
      Addresses app id windowId (osString eventCommand) (.array entries) handler
        (.event id.toNat name windowId ((entryNamed entries "payload").getD .null))
  | job {entries : Entries} {jobId : List UInt8} {runId startedAt : Int} {handler : Handler σ}
      (hid : stringOf (entryNamed entries "id") = some jobId)
      (hrun : intOf (entryNamed entries "runId") = some runId)
      (hstarted : intOf (entryNamed entries "startedAtMs") = some startedAt)
      (hhandler : app.jobHandlers jobId = some handler) :
      Addresses app id windowId (osString jobCommand) (.array entries) handler
        (.job id.toNat jobId runId startedAt)

/-! ## Answers that arrive -/

/-- The bytes of an effect. -/
def effectSize (floatText : PhpFloat → String) (effect : Effect) : Nat :=
  32 + numberSize (toString ((effect.kind.ctorIdx : Int) + 1)) +
    stringSize effect.windowId.text + jsonSize floatText (.array effect.payload)

/-- The bytes of an event. -/
def eventSize (floatText : PhpFloat → String) (event : ClientEvent) : Nat :=
  20 + stringSize event.name.text + jsonSize floatText event.payload +
    ((event.windowId.map fun windowId => 12 + stringSize windowId.text).getD 0)

/-- The bytes of a response that reports success. -/
def successSize (floatText : PhpFloat → String) (id : Int) (payload : PhpValue)
    (effects : List Effect) (events : List ClientEvent) : Nat :=
  75 + numberSize (toString id) + jsonSize floatText payload +
    separated (effects.map (effectSize floatText)) + separated (events.map (eventSize floatText))

/-- The bytes of a response that reports a failure of the handler. -/
def failureSize (id : Int) (message : String) : Nat :=
  109 + numberSize (toString id) + stringSize message

/-- The parts of a result can be printed, are not nested too deep for the host and fit into a
line. -/
structure Printable (floatText : PhpFloat → String) (id : Int) (payload : PhpValue)
    (effects : List Effect) (events : List ClientEvent) : Prop where
  encodable : payload.encodable = true
  effectsEncodable : ∀ effect ∈ effects, (PhpValue.array effect.payload).encodable = true
  eventsEncodable : ∀ event ∈ events, event.payload.encodable = true
  nesting : payload.nesting + 1 < recursionLimit
  effectsNesting : ∀ effect ∈ effects, (PhpValue.array effect.payload).nesting + 3 < recursionLimit
  eventsNesting : ∀ event ∈ events, event.payload.nesting + 3 < recursionLimit
  size : successSize floatText id payload effects events < maxMessageBytes

/-- The outcome of a handler can be delivered. -/
def Deliverable (floatText : PhpFloat → String) (id : Int) : Outcome → Prop
  | .returned value => Printable floatText id value [] []
  | .result payload effects events => Printable floatText id payload effects events
  | .thrown message =>
      ∃ text, utf8Text (failureMessage message) = some text ∧ failureSize id text < maxMessageBytes

/-- A request is answered: one line is written that the host takes for the response to it, nothing
else of the input is read, and the application goes on in the state `after`. -/
def Answered (app : Application σ) (decode : List UInt8 → Option PhpValue)
    (floatText : PhpFloat → String) (parse : String → Option Json) (line : List UInt8)
    (id : UInt64) (state after : σ) : Prop :=
  ∃ text : String, newline ∉ osString text ∧
    (∀ rest, runTurn app decode floatText (line ++ newline :: rest) state =
      .wrote (osString text ++ [newline]) after rest) ∧
    (∀ rest, receiveFromWorker (osString text ++ newline :: rest) = (.ok (text ++ "\n"), rest)) ∧
    ∃ json response, parse (text ++ "\n") = some json ∧
      ResponseEnvelope.codec.decode json = some response ∧ response.validateFor id = .ok ()

end Statement

/-! ## The shape of a response -/

section Shape

variable {floatText : PhpFloat → String}

theorem key_name_text (name : String) : keyName (.string (osString name)) = some name :=
  from_utf8_os_string name

/-- A text can be printed. -/
theorem encodable_text (text : String) : (phpText text).encodable = true := by
  rw [phpText, PhpValue.encodable, utf8Text, from_utf8_os_string]
  rfl

theorem size_text (text : String) : jsonSize floatText (phpText text) = stringSize text := by
  rw [phpText, jsonSize, utf8Text, from_utf8_os_string]
  rfl

theorem encode_text (depth : Nat) (text : String) :
    jsonEncode floatText depth (phpText text) = some (.string text) := by
  rw [phpText, jsonEncode, utf8Text, from_utf8_os_string]
  rfl

theorem encodable_named (members : List (String × PhpValue)) :
    (named members).encodable = members.all fun member => member.2.encodable := by
  rw [named, PhpValue.encodable]
  induction members with
  | nil => rfl
  | cons member rest ih =>
      rw [List.map_cons, encodableEntries, key_name_text, ih]
      rfl

/-- The greatest of the nestings. -/
def deepest (values : List PhpValue) : Nat := (values.map PhpValue.nesting).foldr max 0

theorem deepest_lt {values : List PhpValue} {bound : Nat} :
    deepest values < bound ↔ 0 < bound ∧ ∀ value ∈ values, value.nesting < bound := by
  induction values with
  | nil => simp [deepest]
  | cons value rest ih =>
      show max value.nesting (deepest rest) < bound ↔ _
      rw [Nat.max_lt, ih, List.forall_mem_cons]
      constructor
      · intro ⟨hvalue, hbound, hrest⟩
        exact ⟨hbound, hvalue, hrest⟩
      · intro ⟨hbound, hvalue, hrest⟩
        exact ⟨hvalue, hbound, hrest⟩

theorem nesting_named (members : List (String × PhpValue)) :
    (named members).nesting = deepest (members.map Prod.snd) + 1 := by
  have hentries : nestingOfEntries (members.map fun member =>
      (PhpKey.string (osString member.1), member.2)) = deepest (members.map Prod.snd) := by
    induction members with
    | nil => rfl
    | cons member rest ih =>
        rw [List.map_cons, nestingOfEntries, ih]
        rfl
  rw [named, PhpValue.nesting, hentries]

/-- An array with a name for a key is no list. -/
theorem is_list_named (first : String × PhpValue) (rest : List (String × PhpValue)) :
    isList ((first :: rest).map fun member => (.string (osString member.1), member.2)) = false := by
  rw [isList, List.map_map, List.length_map, List.length_cons, List.range_succ_eq_map]
  rfl

/-- The bytes of a member, from its value. -/
def namedSize (floatText : PhpFloat → String) (member : String × PhpValue) : Nat :=
  stringSize member.1 + (1 + jsonSize floatText member.2)

theorem size_named (first : String × PhpValue) (rest : List (String × PhpValue)) :
    jsonSize floatText (named (first :: rest)) =
      2 + separated ((first :: rest).map (namedSize floatText)) := by
  have hentries : ∀ members : List (String × PhpValue),
      entrySizes floatText (members.map fun member =>
        (PhpKey.string (osString member.1), member.2)) = members.map (namedSize floatText) := by
    intro members
    induction members with
    | nil => rfl
    | cons member rest ih =>
        rw [List.map_cons, entrySizes, key_name_text, ih]
        rfl
  rw [named, jsonSize, is_list_named, hentries]
  rfl

/-- What the members of an array are printed as. -/
def encodeNamed (floatText : PhpFloat → String) (depth : Nat) (members : List (String × PhpValue)) :
    Option (List (String × Json)) :=
  members.mapM fun member => (jsonEncode floatText depth member.2).map fun json => (member.1, json)

theorem encode_named (first : String × PhpValue) (rest : List (String × PhpValue)) {depth : Nat}
    (hdepth : depth < maxJsonDepth) :
    jsonEncode floatText depth (named (first :: rest)) =
      (encodeNamed floatText (depth + 1) (first :: rest)).map .object := by
  have hentries : ∀ members : List (String × PhpValue),
      encodeEntries floatText (depth + 1) (members.map fun member =>
        (PhpKey.string (osString member.1), member.2)) =
          encodeNamed floatText (depth + 1) members := by
    intro members
    induction members with
    | nil => rfl
    | cons member rest ih =>
        rw [List.map_cons, encodeEntries, key_name_text, ih]
        show _ = List.mapM _ (member :: rest)
        rw [List.mapM_cons]
        cases jsonEncode floatText (depth + 1) member.2 <;> rfl
  rw [named, jsonEncode, if_neg (by omega), is_list_named, hentries]
  rfl

/-- The entries of a list from this number on. -/
def indexed (start : Nat) (values : List PhpValue) : Entries :=
  (values.zipIdx start).map fun entry => (.int entry.2, entry.1)

theorem is_list_indexed (values : List PhpValue) : isList (indexed 0 values) = true := by
  rw [isList, beq_iff_eq, indexed, List.map_map, List.length_map, List.length_zipIdx,
    List.range_eq_range', ← List.zipIdx_map_snd, List.map_map]
  rfl

theorem encodable_list (values : List PhpValue) :
    (phpList values).encodable = values.all PhpValue.encodable := by
  have hentries : ∀ start,
      encodableEntries (indexed start values) = values.all PhpValue.encodable := by
    induction values with
    | nil => exact fun _ => rfl
    | cons value rest ih =>
        intro start
        rw [indexed, List.zipIdx_cons, List.map_cons, encodableEntries]
        exact congrArg (value.encodable && ·) (ih (start + 1))
  exact hentries 0

theorem nesting_list (values : List PhpValue) :
    (phpList values).nesting = deepest values + 1 := by
  have hentries : ∀ start, nestingOfEntries (indexed start values) = deepest values := by
    induction values with
    | nil => exact fun _ => rfl
    | cons value rest ih =>
        intro start
        rw [indexed, List.zipIdx_cons, List.map_cons, nestingOfEntries]
        exact congrArg (max value.nesting ·) (ih (start + 1))
  exact congrArg (· + 1) (hentries 0)

theorem size_list (values : List PhpValue) :
    jsonSize floatText (phpList values) = 2 + separated (values.map (jsonSize floatText)) := by
  have hentries : ∀ start,
      itemSizes floatText (indexed start values) = values.map (jsonSize floatText) := by
    induction values with
    | nil => exact fun _ => rfl
    | cons value rest ih =>
        intro start
        rw [indexed, List.zipIdx_cons, List.map_cons, itemSizes]
        exact congrArg (jsonSize floatText value :: ·) (ih (start + 1))
  show jsonSize floatText (.array (indexed 0 values)) = _
  rw [jsonSize, if_pos (is_list_indexed values), hentries]

theorem encode_list (values : List PhpValue) {depth : Nat} (hdepth : depth < maxJsonDepth) :
    jsonEncode floatText depth (phpList values) =
      (values.mapM (jsonEncode floatText (depth + 1))).map .array := by
  have hentries : ∀ start, encodeItems floatText (depth + 1) (indexed start values) =
      values.mapM (jsonEncode floatText (depth + 1)) := by
    induction values with
    | nil => exact fun _ => rfl
    | cons value rest ih =>
        intro start
        rw [indexed, List.zipIdx_cons, List.map_cons, encodeItems, List.mapM_cons,
          show (rest.zipIdx (start + 1)).map _ = indexed (start + 1) rest from rfl, ih]
        rfl
  show jsonEncode floatText depth (.array (indexed 0 values)) = _
  rw [jsonEncode, if_neg (by omega), if_pos (is_list_indexed values), hentries]

/-! ## Effects and events -/

theorem effect_encodable (effect : Effect) :
    effect.toArray.encodable = (PhpValue.array effect.payload).encodable := by
  rw [Effect.toArray, encodable_named]
  simp [encodable_text, PhpValue.encodable]

theorem effect_nesting (effect : Effect) :
    effect.toArray.nesting = (PhpValue.array effect.payload).nesting + 1 := by
  rw [Effect.toArray, nesting_named]
  simp [deepest, phpText, PhpValue.nesting]

theorem effect_size (effect : Effect) :
    jsonSize floatText effect.toArray = effectSize floatText effect := by
  have hkind : stringSize "kind" = 6 := by decide
  have hwindow : stringSize "windowId" = 10 := by decide
  have hpayload : stringSize "payload" = 9 := by decide
  rw [Effect.toArray, size_named]
  simp only [List.map_cons, List.map_nil, namedSize, separated, List.sum_cons, List.sum_nil,
    List.length_cons, List.length_nil, size_text, jsonSize, hkind, hwindow, hpayload, effectSize]
  omega

theorem event_encodable (event : ClientEvent) :
    event.toArray.encodable = event.payload.encodable := by
  rw [ClientEvent.toArray, encodable_named]
  cases event.windowId <;> simp [encodable_text]

theorem event_nesting (event : ClientEvent) :
    event.toArray.nesting = event.payload.nesting + 1 := by
  rw [ClientEvent.toArray, nesting_named]
  cases event.windowId <;> simp [deepest, phpText, PhpValue.nesting]

theorem event_size (event : ClientEvent) :
    jsonSize floatText event.toArray = eventSize floatText event := by
  have hname : stringSize "name" = 6 := by decide
  have hwindow : stringSize "windowId" = 10 := by decide
  have hpayload : stringSize "payload" = 9 := by decide
  rw [ClientEvent.toArray, eventSize]
  cases event.windowId with
  | none =>
      rw [List.cons_append, size_named]
      simp only [Option.map_none, Option.toList_none, List.nil_append, List.cons_append,
        List.map_cons, List.map_nil, namedSize, separated, List.sum_cons, List.sum_nil,
        List.length_cons, List.length_nil, size_text, hname, hpayload, Option.getD_none]
      omega
  | some windowId =>
      rw [List.cons_append, size_named]
      simp only [Option.map_some, Option.toList_some, List.nil_append, List.cons_append,
        List.map_cons, List.map_nil, namedSize, separated, List.sum_cons, List.sum_nil,
        List.length_cons, List.length_nil, size_text, hname, hwindow, hpayload,
        Option.getD_some]
      omega

/-! ## Encodings of responses -/

/-- A result can be encoded exactly when its parts can. -/
theorem success_encodable (id : Int) (payload : PhpValue) (effects : List Effect)
    (events : List ClientEvent) :
    (success id payload effects events).encodable = true ↔ payload.encodable = true ∧
      (∀ effect ∈ effects, (PhpValue.array effect.payload).encodable = true) ∧
      ∀ event ∈ events, event.payload.encodable = true := by
  rw [success, responseHead, encodable_named]
  simp [encodable_list, effect_encodable, event_encodable, PhpValue.encodable]

theorem success_nesting (id : Int) (payload : PhpValue) (effects : List Effect)
    (events : List ClientEvent) :
    (success id payload effects events).nesting < recursionLimit ↔
      payload.nesting + 1 < recursionLimit ∧
      (∀ effect ∈ effects, (PhpValue.array effect.payload).nesting + 3 < recursionLimit) ∧
      ∀ event ∈ events, event.payload.nesting + 3 < recursionLimit := by
  have hlists : ∀ values : List PhpValue,
      (phpList values).nesting < 127 ↔ ∀ value ∈ values, value.nesting < 126 := by
    intro values
    rw [nesting_list]
    show _ + 1 < 126 + 1 ↔ _
    rw [Nat.add_lt_add_iff_right, deepest_lt]
    simp
  rw [success, responseHead, nesting_named]
  show _ + 1 < 127 + 1 ↔ _ + 1 < 128 ∧ (∀ effect ∈ effects, _ + 3 < 128) ∧
    ∀ event ∈ events, _ + 3 < 128
  rw [Nat.add_lt_add_iff_right, deepest_lt]
  simp only [List.cons_append, List.nil_append, List.map_cons, List.map_nil, List.forall_mem_cons,
    hlists, List.forall_mem_map, effect_nesting, event_nesting]
  constructor
  · intro h
    obtain ⟨-, -, -, -, -, hpayload, heffects, hevents, -⟩ := h
    refine ⟨by omega, fun effect hmem => ?_, fun event hmem => ?_⟩
    · have := heffects effect hmem
      omega
    · have := hevents event hmem
      omega
  · intro ⟨hpayload, heffects, hevents⟩
    have hint : ∀ value, (PhpValue.int value).nesting < 127 := fun _ => Nat.zero_lt_succ _
    refine ⟨by omega, hint _, hint _, hint _, hint _, by omega, fun effect hmem => ?_,
      fun event hmem => ?_, fun _ hmem => absurd hmem List.not_mem_nil⟩
    · have := heffects effect hmem
      omega
    · have := hevents event hmem
      omega

theorem success_size (id : Int) (payload : PhpValue) (effects : List Effect)
    (events : List ClientEvent) :
    jsonSize floatText (success id payload effects events) =
      successSize floatText id payload effects events := by
  have hversion : stringSize "version" = 9 := by decide
  have hid : stringSize "id" = 4 := by decide
  have hkind : stringSize "kind" = 6 := by decide
  have hstatus : stringSize "status" = 8 := by decide
  have hpayload : stringSize "payload" = 9 := by decide
  have heffects : stringSize "effects" = 9 := by decide
  have hevents : stringSize "events" = 8 := by decide
  have hsix : numberSize (toString (protocolVersion : Int)) = 1 := by decide
  have htwo : numberSize (toString ((MessageKind.response.ctorIdx : Int) + 1)) = 1 := by decide
  have hone : numberSize (toString ((ResponseStatus.success.ctorIdx : Int) + 1)) = 1 := by decide
  rw [success, responseHead, List.cons_append, size_named]
  simp only [List.cons_append, List.nil_append, List.map_cons, List.map_nil, namedSize, jsonSize,
    size_list, List.map_map, hversion, hid, hkind, hstatus, hpayload, heffects, hevents, hsix, htwo,
    hone, successSize]
  rw [show jsonSize floatText ∘ Effect.toArray = effectSize floatText from funext effect_size,
    show jsonSize floatText ∘ ClientEvent.toArray = eventSize floatText from funext event_size]
  simp only [separated, List.sum_cons, List.sum_nil, List.length_cons, List.length_nil]
  omega

/-- A failure can be encoded exactly when its message is a text. -/
theorem failure_encodable (id : Int) (code : ErrorCode) (message : List UInt8) :
    (failure id code message).encodable = (utf8Text (failureMessage message)).isSome := by
  rw [failure, responseHead, encodable_named]
  simp [encodable_list, encodable_named, PhpValue.encodable]

theorem failure_nesting (id : Int) (code : ErrorCode) (message : List UInt8) :
    (failure id code message).nesting = 2 := by
  rw [failure, responseHead, nesting_named]
  simp [deepest, nesting_named, nesting_list, PhpValue.nesting]

theorem failure_size (id : Int) {message : List UInt8} {text : String}
    (h : utf8Text (failureMessage message) = some text) :
    jsonSize floatText (failure id .handlerFailed message) = failureSize id text := by
  have hversion : stringSize "version" = 9 := by decide
  have hid : stringSize "id" = 4 := by decide
  have hkind : stringSize "kind" = 6 := by decide
  have hstatus : stringSize "status" = 8 := by decide
  have hpayload : stringSize "payload" = 9 := by decide
  have heffects : stringSize "effects" = 9 := by decide
  have hevents : stringSize "events" = 8 := by decide
  have herror : stringSize "error" = 7 := by decide
  have hcode : stringSize "code" = 6 := by decide
  have hmessage : stringSize "message" = 9 := by decide
  have hsix : numberSize (toString (protocolVersion : Int)) = 1 := by decide
  have htwo : numberSize (toString ((MessageKind.response.ctorIdx : Int) + 1)) = 1 := by decide
  have hfailed : numberSize (toString ((ResponseStatus.failure.ctorIdx : Int) + 1)) = 1 := by decide
  have hfive : numberSize (toString (ErrorCode.handlerFailed.number : Int)) = 1 := by decide
  rw [failure, responseHead, List.cons_append, size_named]
  simp only [List.cons_append, List.nil_append, List.map_cons, List.map_nil, namedSize, jsonSize,
    size_list, size_named, h, Option.map_some, Option.getD_some, separated, List.sum_cons,
    List.sum_nil, List.length_cons, List.length_nil, hversion, hid, hkind, hstatus, hpayload,
    heffects, hevents, herror, hcode, hmessage, hsix, htwo, hfailed, hfive, failureSize]
  omega

/-! ## What the host reads -/

theorem encode_named_cons {name : String} {value : PhpValue} {rest : List (String × PhpValue)}
    {depth : Nat} {members : List (String × Json)} :
    encodeNamed floatText depth ((name, value) :: rest) = some members ↔
      ∃ json others, jsonEncode floatText depth value = some json ∧
        encodeNamed floatText depth rest = some others ∧ members = (name, json) :: others := by
  show List.mapM _ ((name, value) :: rest) = _ ↔ _
  rw [List.mapM_cons]
  show _ ↔ ∃ json others, _ ∧ List.mapM _ rest = some others ∧ _
  simp [Option.bind_eq_some_iff]
  grind

theorem kind_number (kind : EffectKind) :
    Json.number ((kind.ctorIdx : Int) + 1) = EffectKind.codec.encode kind := by
  cases kind <;> rfl

theorem code_number (code : ErrorCode) :
    Json.number (code.number : Int) = ErrorCode.codec.encode code := by
  cases code <;> rfl

/-- The host reads an effect. -/
theorem effect_read {effect : Effect} {depth : Nat} {json : Json} (hdepth : depth < maxJsonDepth)
    (h : jsonEncode floatText depth effect.toArray = some json)
    (hnesting : (PhpValue.array effect.payload).nesting ≤ recursionLimit) :
    ∃ read, Protocol.Effect.codec.Valid read ∧ Protocol.Effect.codec.encode read = json := by
  rw [Effect.toArray, encode_named _ _ hdepth] at h
  obtain ⟨members, hmembers, rfl⟩ := Option.map_eq_some_iff.mp h
  obtain ⟨kind, members, hkind, hafterKind, rfl⟩ := encode_named_cons.mp hmembers
  obtain ⟨windowId, members, hwindowId, hafterId, rfl⟩ := encode_named_cons.mp hafterKind
  obtain ⟨payload, members, hpayload, hnil, rfl⟩ := encode_named_cons.mp hafterId
  rw [encode_text] at hwindowId
  cases hkind
  cases hwindowId
  cases hnil
  have hdepth := (json_encode_prints _ hpayload).depth
  have hraw : payload.depth ≤ recursionLimit := by omega
  refine ⟨⟨effect.kind, effect.windowId.text, payload⟩, ?_, ?_⟩
  · exact ⟨⟨⟨trivial, trivial⟩, trivial⟩, hraw⟩
  · rw [kind_number]
    rfl

/-- The host reads an event. -/
theorem event_read {event : ClientEvent} {depth : Nat} {json : Json} (hdepth : depth < maxJsonDepth)
    (h : jsonEncode floatText depth event.toArray = some json)
    (hnesting : event.payload.nesting ≤ recursionLimit) :
    ∃ read, Protocol.ClientEvent.codec.Valid read ∧
      Protocol.ClientEvent.codec.encode read = json := by
  rw [ClientEvent.toArray, List.cons_append, encode_named _ _ hdepth] at h
  obtain ⟨members, hmembers, rfl⟩ := Option.map_eq_some_iff.mp h
  obtain ⟨name, members, hname, hafterName, rfl⟩ := encode_named_cons.mp hmembers
  obtain ⟨payload, members, hpayload, hlast, rfl⟩ := encode_named_cons.mp hafterName
  rw [encode_text] at hname
  cases hname
  have hdepth := (json_encode_prints _ hpayload).depth
  have hraw : payload.depth ≤ recursionLimit := by omega
  cases hwindowId : event.windowId with
  | none =>
      rw [hwindowId] at hlast
      cases hlast
      refine ⟨⟨event.name.text, payload, none⟩, ?_, rfl⟩
      exact ⟨⟨⟨trivial, trivial⟩, hraw⟩, nofun⟩
  | some windowId =>
      rw [hwindowId] at hlast
      obtain ⟨target, members, htarget, hnil, rfl⟩ := encode_named_cons.mp hlast
      rw [encode_text] at htarget
      cases htarget
      cases hnil
      refine ⟨⟨event.name.text, payload, some windowId.text⟩, ?_, rfl⟩
      exact ⟨⟨⟨trivial, trivial⟩, hraw⟩, fun _ _ => trivial⟩

/-- The host reads a list, if it reads what is in it. -/
theorem list_read {α β : Type} {toArray : α → PhpValue} {codec : Codec β} {values : List α}
    {depth : Nat} {json : Json} (hdepth : depth < maxJsonDepth)
    (h : jsonEncode floatText depth (phpList (values.map toArray)) = some json)
    (hread : ∀ value ∈ values, ∀ json,
      jsonEncode floatText (depth + 1) (toArray value) = some json →
        ∃ read, codec.Valid read ∧ codec.encode read = json) :
    ∃ read, codec.list.Valid read ∧ codec.list.encode read = json := by
  rw [encode_list _ hdepth] at h
  obtain ⟨items, hitems, rfl⟩ := Option.map_eq_some_iff.mp h
  clear h
  induction values generalizing items with
  | nil =>
      cases hitems
      exact ⟨[], fun _ hmem => absurd hmem List.not_mem_nil, rfl⟩
  | cons value rest ih =>
      rw [List.map_cons, List.mapM_cons] at hitems
      obtain ⟨json, hjson, hitems⟩ := Option.bind_eq_some_iff.mp hitems
      obtain ⟨others, hothers, hitems⟩ := Option.bind_eq_some_iff.mp hitems
      cases hitems
      obtain ⟨first, hfirst, rfl⟩ := hread value List.mem_cons_self json hjson
      obtain ⟨reads, hreads, hencode⟩ := ih
        (fun other hmem => hread other (List.mem_cons_of_mem _ hmem)) others hothers
      refine ⟨first :: reads, ?_, ?_⟩
      · intro read hmem
        obtain rfl | hmem := List.mem_cons.mp hmem
        · exact hfirst
        · exact hreads read hmem
      · have hitems : reads.map codec.encode = others := by
          simpa [Codec.list] using hencode
        show Json.array (codec.encode first :: reads.map codec.encode) = _
        rw [hitems]

/-- A response with a valid identifier is read back. -/
theorem head_read {id : UInt64} {status : ResponseStatus} {rest : List (String × PhpValue)}
    {json : Json}
    (h : jsonEncode floatText 0 (named (responseHead id.toNat status ++ rest)) = some json) :
    ∃ members, encodeNamed floatText 1 rest = some members ∧
      json = .object (("version", .number protocolVersion) :: ("id", .number id.toNat) ::
        ("kind", MessageKind.codec.encode .response) ::
        ("status", ResponseStatus.codec.encode status) :: members) := by
  rw [responseHead, List.cons_append, encode_named _ _ (by decide)] at h
  obtain ⟨members, hmembers, rfl⟩ := Option.map_eq_some_iff.mp h
  obtain ⟨version, members, hversion, hafterVersion, rfl⟩ := encode_named_cons.mp hmembers
  obtain ⟨number, members, hnumber, hafterId, rfl⟩ := encode_named_cons.mp hafterVersion
  obtain ⟨kind, members, hkind, hafterKind, rfl⟩ := encode_named_cons.mp hafterId
  obtain ⟨state, members, hstate, hafterStatus, rfl⟩ := encode_named_cons.mp hafterKind
  cases hversion
  cases hnumber
  cases hkind
  cases hstate
  refine ⟨members, hafterStatus, ?_⟩
  cases status <;> rfl

/-- The host reads a response that reports success. -/
theorem success_read {id : UInt64} {payload : PhpValue} {effects : List Effect}
    {events : List ClientEvent} {json : Json}
    (h : jsonEncode floatText 0 (success id.toNat payload effects events) = some json)
    (hpayload : payload.nesting ≤ recursionLimit)
    (heffects : ∀ effect ∈ effects, (PhpValue.array effect.payload).nesting ≤ recursionLimit)
    (hevents : ∀ event ∈ events, event.payload.nesting ≤ recursionLimit) :
    ∃ response, ResponseEnvelope.codec.decode json = some response ∧
      response.validateFor id = .ok () := by
  obtain ⟨members, hmembers, rfl⟩ := head_read h
  obtain ⟨result, members, hresult, hafterPayload, rfl⟩ := encode_named_cons.mp hmembers
  obtain ⟨effectJson, members, heffectJson, hafterEffects, rfl⟩ :=
    encode_named_cons.mp hafterPayload
  obtain ⟨eventJson, members, heventJson, hnil, rfl⟩ := encode_named_cons.mp hafterEffects
  cases hnil
  obtain ⟨readEffects, hreadEffects, rfl⟩ := list_read (by decide) heffectJson
    fun effect hmem json hjson => effect_read (by decide) hjson (heffects effect hmem)
  obtain ⟨readEvents, hreadEvents, rfl⟩ := list_read (by decide) heventJson
    fun event hmem json hjson => event_read (by decide) hjson (hevents event hmem)
  have hdepth := (json_encode_prints _ hresult).depth
  have hraw : result.depth ≤ recursionLimit := by omega
  have hversion : protocolVersion < 2 ^ 16 := by decide
  let response : ResponseEnvelope Json :=
    ⟨protocolVersion, id, .response, .success, result, readEffects, readEvents, none⟩
  have hvalid : ResponseEnvelope.codec.Valid response :=
    ⟨⟨⟨⟨⟨⟨⟨⟨trivial, hversion⟩, id.toNat_lt⟩, trivial⟩, trivial⟩, hraw⟩, hreadEffects⟩,
      hreadEvents⟩, nofun⟩
  refine ⟨response, ResponseEnvelope.codec.decode_encode response hvalid, ?_⟩
  simp [response, ResponseEnvelope.validateFor]

/-- The host reads a response that reports a failure. -/
theorem failure_read {id : UInt64} {code : ErrorCode} {message : List UInt8} {json : Json}
    (h : jsonEncode floatText 0 (failure id.toNat code message) = some json) :
    ∃ response, ResponseEnvelope.codec.decode json = some response ∧
      response.validateFor id = .ok () := by
  obtain ⟨members, hmembers, rfl⟩ := head_read h
  obtain ⟨result, members, hresult, hafterPayload, rfl⟩ := encode_named_cons.mp hmembers
  obtain ⟨effectJson, members, heffectJson, hafterEffects, rfl⟩ :=
    encode_named_cons.mp hafterPayload
  obtain ⟨eventJson, members, heventJson, hafterEvents, rfl⟩ := encode_named_cons.mp hafterEffects
  obtain ⟨error, members, herror, hnil, rfl⟩ := encode_named_cons.mp hafterEvents
  rw [encode_named _ _ (by decide)] at herror
  obtain ⟨parts, hparts, rfl⟩ := Option.map_eq_some_iff.mp herror
  obtain ⟨number, parts, hnumber, hafterCode, rfl⟩ := encode_named_cons.mp hparts
  obtain ⟨text, parts, htext, hlast, rfl⟩ := encode_named_cons.mp hafterCode
  cases hresult
  cases heffectJson
  cases heventJson
  cases hnil
  cases hlast
  cases hnumber
  rw [jsonEncode] at htext
  obtain ⟨said, -, rfl⟩ := Option.map_eq_some_iff.mp htext
  rw [code_number]
  have hversion : protocolVersion < 2 ^ 16 := by decide
  let response : ResponseEnvelope Json :=
    ⟨protocolVersion, id, .response, .failure, .null, [], [], some ⟨code, said⟩⟩
  have hvalid : ResponseEnvelope.codec.Valid response :=
    ⟨⟨⟨⟨⟨⟨⟨⟨trivial, hversion⟩, id.toNat_lt⟩, trivial⟩, trivial⟩, Nat.zero_le _⟩,
      fun _ hmem => absurd hmem List.not_mem_nil⟩, fun _ hmem => absurd hmem List.not_mem_nil⟩,
      fun _ _ => ⟨⟨trivial, trivial⟩, trivial⟩⟩
  refine ⟨response, ResponseEnvelope.codec.decode_encode response hvalid, ?_⟩
  simp [response, ResponseEnvelope.validateFor]

end Shape

/-! ## One turn -/

section Turns

variable {σ : Type} {app : Application σ} {decode : List UInt8 → Option PhpValue}
  {floatText : PhpFloat → String} {parse : String → Option Json}

/-- A request for a registered handler comes to it. -/
theorem dispatch_request {message : Entries} {id : UInt64} {windowId command : List UInt8}
    {payload : PhpValue} {handler : Handler σ} {context : Context} (state : σ)
    (hrequest : Request app message id windowId command payload)
    (haddress : Addresses app id windowId command payload handler context) :
    dispatch app message state = invoke id.toNat handler context state := by
  have hpositive : (0 : Int) < id.toNat := by exact_mod_cast hrequest.positive
  have hid : messageId message = id.toNat := by
    rw [messageId, hrequest.numbered]
    exact if_pos hpositive
  have hcommand : dispatchCommand app id.toNat windowId command payload state =
      invoke id.toNat handler context state := by
    cases haddress with
    | command hboot hevent hjob hhandler =>
        rw [dispatchCommand, if_neg hboot, if_neg hevent, if_neg hjob, hhandler]
    | event hname hhandler =>
        rw [dispatchCommand, if_neg (by decide), if_pos rfl]
        simp only [dispatchEvent, hname, hhandler]
    | job hid hrun hstarted hhandler =>
        rw [dispatchCommand, if_neg (by decide), if_neg (by decide), if_pos rfl]
        simp only [dispatchJob, hid, hrun, hstarted, hhandler]
  have haccepted : ¬ (intOf (entryNamed message "kind") ≠
      some ((MessageKind.request.ctorIdx : Int) + 1) ∨ (id.toNat : Int) = 0) := by
    intro h
    obtain h | h := h
    · exact h hrequest.asked
    · omega
  unfold dispatch
  rw [hid, if_neg (not_not.mpr hrequest.current), if_neg haccepted, hrequest.placed,
    hrequest.loaded]
  dsimp only
  rw [if_pos (List.contains_iff_mem.mpr hrequest.known), hrequest.addressed]
  cases command with
  | nil => exact absurd rfl hrequest.nonempty
  | cons first rest => exact hcommand

/-- So does its line, unless it is too long. -/
theorem handle_request {line : List UInt8} (hlength : line.length < maxMessageBytes)
    {message : Entries} (hdecode : decode (line ++ [newline]) = some (.array message)) {id : UInt64}
    {windowId command : List UInt8} {payload : PhpValue} {handler : Handler σ} {context : Context}
    (state : σ) (hrequest : Request app message id windowId command payload)
    (haddress : Addresses app id windowId command payload handler context) :
    handleLine app decode (line ++ [newline]) state = invoke id.toNat handler context state := by
  rw [handleLine, handle_line_length.mpr hlength]
  simp only [hdecode]
  rw [if_pos (List.all_eq_true.mpr hrequest.named)]
  exact dispatch_request state hrequest haddress

/-- A turn handles the line and prints the response. -/
theorem turn_of_line {line : List UInt8} (hline : newline ∉ line)
    (hlength : line.length ≤ maxMessageBytes) {state after : σ} {response : PhpValue}
    (hhandle : handleLine app decode (line ++ [newline]) state = (response, after))
    (rest : List UInt8) :
    runTurn app decode floatText (line ++ newline :: rest) state =
      match jsonEncode floatText 0 response with
      | none => .died
      | some json => .wrote (textBytes (jsonText json) ++ [newline]) after rest := by
  rw [runTurn, run_line hline hlength]
  dsimp only
  rw [hhandle]

/-- What the host receives is what was printed. -/
theorem printed_of_answered {line : List UInt8} (hline : newline ∉ line)
    (hlength : line.length ≤ maxMessageBytes) {state after left : σ} {response : PhpValue}
    {id : UInt64} (hhandle : handleLine app decode (line ++ [newline]) state = (response, left))
    (hparse : ∀ json, jsonEncode floatText 0 response = some json →
      parse (String.ofList (jsonText json) ++ "\n") =
        if json.depth < recursionLimit then some json else none)
    (hanswered : Answered app decode floatText parse line id state after) :
    ∃ json read, jsonEncode floatText 0 response = some json ∧ json.depth < recursionLimit ∧
      textSize json < maxMessageBytes ∧ ResponseEnvelope.codec.decode json = some read ∧
      read.validateFor id = .ok () := by
  obtain ⟨text, htext, hwrote, hreceived, json, read, hjson, hdecode, hvalid⟩ := hanswered
  have hwritten := hwrote []
  rw [turn_of_line hline hlength hhandle] at hwritten
  cases hencode : jsonEncode floatText 0 response with
  | none =>
      rw [hencode] at hwritten
      cases hwritten
  | some printed =>
      rw [hencode] at hwritten
      have hbytes : textBytes (jsonText printed) = osString text := by
        injection hwritten with hbytes
        exact List.append_cancel_right hbytes
      have hsame : text = String.ofList (jsonText printed) := by
        apply os_string_injective
        rw [os_string_of_list]
        exact hbytes.symm
      have hshort := (receive_from_worker_iff htext []).mp (hreceived [])
      rw [hsame, hparse printed hencode] at hjson
      by_cases hdepth : printed.depth < recursionLimit
      · rw [if_pos hdepth] at hjson
        obtain rfl := Option.some.inj hjson
        exact ⟨printed, read, rfl, hdepth, by rw [textSize, hbytes]; exact hshort, hdecode, hvalid⟩
      · rw [if_neg hdepth] at hjson
        cases hjson

/-- A response is received exactly when it can be printed, is not nested too deep and is shorter
than the limit. -/
theorem answered_response {line : List UInt8} (hline : newline ∉ line)
    (hlength : line.length ≤ maxMessageBytes) {state after : σ} {response : PhpValue}
    {id : UInt64} (hhandle : handleLine app decode (line ++ [newline]) state = (response, after))
    (hfloat : ∀ float, '\n' ∉ (floatText float).toList)
    (hparse : ∀ json, jsonEncode floatText 0 response = some json →
      parse (String.ofList (jsonText json) ++ "\n") =
        if json.depth < recursionLimit then some json else none)
    (hread : ∀ json, jsonEncode floatText 0 response = some json →
      response.nesting < recursionLimit →
        ∃ read, ResponseEnvelope.codec.decode json = some read ∧ read.validateFor id = .ok ()) :
    Answered app decode floatText parse line id state after ↔
      response.encodable = true ∧ response.nesting < recursionLimit ∧
        jsonSize floatText response < maxMessageBytes := by
  constructor
  · intro hanswered
    obtain ⟨json, read, hencode, hlimit, hshort, -, -⟩ :=
      printed_of_answered hline hlength hhandle hparse hanswered
    obtain ⟨hencodable, hdepth, hsize, -⟩ := json_encode_prints response hencode
    exact ⟨hencodable, by omega, by omega⟩
  · intro h
    obtain ⟨hencodable, hnesting, hsize⟩ := h
    have hlimit : recursionLimit ≤ maxJsonDepth := by decide
    obtain ⟨json, hencode⟩ : ∃ json, jsonEncode floatText 0 response = some json :=
      json_encode_some response hencodable (by omega)
    obtain ⟨-, hdepth, hlong, hnewline⟩ := json_encode_prints response hencode
    have hbytes : osString (String.ofList (jsonText json)) = textBytes (jsonText json) :=
      os_string_of_list _
    have htext : newline ∉ osString (String.ofList (jsonText json)) := by
      rw [hbytes]
      exact text_bytes_no_newline (hnewline hfloat)
    obtain ⟨read, hdecode, hvalid⟩ := hread json hencode hnesting
    refine ⟨String.ofList (jsonText json), htext, fun rest => ?_, fun rest => ?_, json, read, ?_,
      hdecode, hvalid⟩
    · rw [turn_of_line hline hlength hhandle, hencode, hbytes]
    · refine (receive_from_worker_iff htext rest).mpr ?_
      rw [hbytes]
      rw [← hlong] at hsize
      exact hsize
    · rw [hparse json hencode, if_pos (by omega)]

/-- A line of exactly the limit is answered under the identifier 0. -/
theorem unanswered_limit {line : List UInt8} (hline : newline ∉ line)
    (hlength : line.length = maxMessageBytes) {state after : σ} {id : UInt64}
    (hpositive : 0 < id.toNat)
    (hparse : ∀ json, jsonEncode floatText 0 (handleLine app decode (line ++ [newline]) state).1 =
        some json →
      parse (String.ofList (jsonText json) ++ "\n") =
        if json.depth < recursionLimit then some json else none) :
    ¬ Answered app decode floatText parse line id state after := by
  intro hanswered
  have hlong : handleLineLength (line ++ [newline]) =
      .error ⟨.invalidMessage, "The IPC message exceeds the one-megabyte limit."⟩ :=
    if_pos (by rw [List.length_append, List.length_singleton]; omega)
  have hhandle : handleLine app decode (line ++ [newline]) state =
      (failure (0 : UInt64).toNat .invalidMessage
        (osString "The IPC message exceeds the one-megabyte limit."), state) := by
    rw [handleLine, hlong]
    rfl
  rw [hhandle] at hparse
  obtain ⟨json, read, hencode, -, -, hdecode, hvalid⟩ :=
    printed_of_answered hline hlength.le hhandle hparse hanswered
  obtain ⟨other, hother, hzero⟩ := failure_read hencode
  rw [hdecode] at hother
  obtain rfl := Option.some.inj hother
  have hid := ResponseEnvelope.id_of_validate_for hvalid
  rw [ResponseEnvelope.id_of_validate_for hzero] at hid
  rw [← hid] at hpositive
  exact absurd hpositive (by decide)

/-- The outcome of a handler is delivered exactly when it is deliverable. -/
theorem answered_outcome {line : List UInt8} (hline : newline ∉ line)
    (hlength : line.length ≤ maxMessageBytes) {state : σ} {id : UInt64} {handler : Handler σ}
    {context : Context}
    (hhandle : handleLine app decode (line ++ [newline]) state =
      invoke id.toNat handler context state)
    (hfloat : ∀ float, '\n' ∉ (floatText float).toList)
    (hparse : ∀ json, jsonEncode floatText 0 (invoke id.toNat handler context state).1 = some json →
      parse (String.ofList (jsonText json) ++ "\n") =
        if json.depth < recursionLimit then some json else none) :
    Answered app decode floatText parse line id state (handler context state).2 ↔
      Deliverable floatText id.toNat (handler context state).1 := by
  have hprintable : ∀ {payload : PhpValue} {effects : List Effect} {events : List ClientEvent}
      {after : σ}, invoke id.toNat handler context state =
        (success id.toNat payload effects events, after) →
      (Answered app decode floatText parse line id state after ↔
        Printable floatText id.toNat payload effects events) := by
    intro payload effects events after hinvoke
    rw [hinvoke] at hhandle hparse
    rw [answered_response hline hlength hhandle hfloat hparse, success_encodable, success_nesting,
      success_size]
    · constructor
      · intro h
        obtain ⟨⟨hpayload, heffects, hevents⟩, ⟨hdepth, heffectDepth, heventDepth⟩, hsize⟩ := h
        exact ⟨hpayload, heffects, hevents, hdepth, heffectDepth, heventDepth, hsize⟩
      · intro h
        exact ⟨⟨h.encodable, h.effectsEncodable, h.eventsEncodable⟩,
          ⟨h.nesting, h.effectsNesting, h.eventsNesting⟩, h.size⟩
    · intro json hencode hnesting
      obtain ⟨hdepth, heffectDepth, heventDepth⟩ := (success_nesting _ _ _ _).mp hnesting
      refine success_read hencode (by omega) (fun effect hmem => ?_) fun event hmem => ?_
      · have := heffectDepth effect hmem
        omega
      · have := heventDepth event hmem
        omega
  unfold invoke at hprintable hhandle hparse
  cases houtcome : handler context state with
  | mk outcome after =>
      rw [houtcome] at hhandle hparse hprintable
      cases outcome with
      | returned value => exact hprintable rfl
      | result payload effects events => exact hprintable rfl
      | thrown message =>
          rw [answered_response hline hlength hhandle hfloat hparse, failure_encodable,
            failure_nesting]
          · constructor
            · intro h
              obtain ⟨htext, -, hsize⟩ := h
              obtain ⟨text, htext⟩ := Option.isSome_iff_exists.mp htext
              rw [failure_size _ htext] at hsize
              exact ⟨text, htext, hsize⟩
            · intro h
              obtain ⟨text, htext, hsize⟩ := h
              rw [failure_size _ htext, htext]
              exact ⟨rfl, by decide, hsize⟩
          · exact fun json hencode _ => failure_read hencode

/-- The request is answered exactly when its line leaves room for the newline and the outcome of the
handler can be delivered. -/
theorem answered_iff {σ : Type} (app : Application σ) (decode : List UInt8 → Option PhpValue)
    (floatText : PhpFloat → String) (parse : String → Option Json) (line : List UInt8)
    (message : Entries) (id : UInt64) (windowId command : List UInt8) (payload : PhpValue)
    (handler : Handler σ) (context : Context) (state : σ)
    (hline : newline ∉ line) (hlength : line.length ≤ maxMessageBytes)
    (hdecode : decode (line ++ [newline]) = some (.array message))
    (hrequest : Request app message id windowId command payload)
    (haddress : Addresses app id windowId command payload handler context)
    (hfloat : ∀ float, '\n' ∉ (floatText float).toList)
    (hparse : ∀ json, jsonEncode floatText 0 (handleLine app decode (line ++ [newline]) state).1 =
        some json →
      parse (String.ofList (jsonText json) ++ "\n") =
        if json.depth < recursionLimit then some json else none) :
    Answered app decode floatText parse line id state (handler context state).2 ↔
      line.length < maxMessageBytes ∧
        Deliverable floatText id.toNat (handler context state).1 := by
  by_cases hlimit : line.length = maxMessageBytes
  · constructor
    · intro hanswered
      exact absurd hanswered (unanswered_limit hline hlimit hrequest.positive hparse)
    · intro h
      omega
  · have hshort : line.length < maxMessageBytes := by omega
    have hhandle := handle_request hshort hdecode state hrequest haddress
    rw [hhandle] at hparse
    rw [answered_outcome hline hlength hhandle hfloat hparse]
    exact ⟨fun h => ⟨hshort, h⟩, And.right⟩

end Turns

/-! ## The notes application -/

section Notes

/-- A request to save a note. -/
def saveRequest : Entries :=
  [(.string (osString "version"), .int 6), (.string (osString "id"), .int 2),
    (.string (osString "kind"), .int 1), (.string (osString "command"), phpText "notes.save"),
    (.string (osString "windowId"), phpText "main"), (.string (osString "payload"), phpText "a")]

/-- Saving a note, which the application counts; `answer` is what the handler returns. -/
def saveNote (answer : PhpValue) : Handler Nat := fun _ notes => (.returned answer, notes + 1)

/-- The application. -/
def notesApp (answer : PhpValue) : Application Nat where
  windows := [osString "main"]
  bootPayload := .null
  commands command :=
    if command = osString "notes.save" then some (saveNote answer) else none
  eventHandlers _ := none
  jobHandlers _ := none

/-- `json_decode` of the request. -/
def notesDecoder (bytes : List UInt8) : Option PhpValue :=
  if bytes = osString (notesRequest 1) ++ [newline] then some (.array saveRequest) else none

/-- A decimal number. -/
def oneAndHalf (_ : PhpFloat) : String := "1.5"

/-- The host's parser on the answer to the request. -/
def notesReader (answer : PhpValue) (text : String) : Option Json :=
  (jsonEncode oneAndHalf 0 (success 2 answer [] [])).bind fun json =>
    if text = String.ofList (jsonText json) ++ "\n" then some json else none

theorem notes_reader_reads {answer : PhpValue} (hnesting : answer.nesting + 1 < recursionLimit)
    {json : Json} (h : jsonEncode oneAndHalf 0 (success 2 answer [] []) = some json) :
    notesReader answer (String.ofList (jsonText json) ++ "\n") =
      if json.depth < recursionLimit then some json else none := by
  have hdepth : json.depth < recursionLimit := by
    rw [(json_encode_prints _ h).depth, success_nesting]
    exact ⟨hnesting, fun _ hmem => absurd hmem List.not_mem_nil,
      fun _ hmem => absurd hmem List.not_mem_nil⟩
  rw [if_pos hdepth, notesReader, h]
  exact if_pos rfl

theorem save_request (answer : PhpValue) :
    Request (notesApp answer) saveRequest 2 (osString "main") (osString "notes.save")
      (phpText "a") where
  named := by decide
  current := by decide
  numbered := by decide
  positive := by decide
  asked := by decide
  placed := by rfl
  known := List.mem_singleton_self _
  addressed := by rfl
  nonempty := by decide
  loaded := by rfl

theorem save_address (answer : PhpValue) :
    Addresses (notesApp answer) 2 (osString "main") (osString "notes.save") (phpText "a")
      (saveNote answer)
      (.command (2 : UInt64).toNat (osString "notes.save") (osString "main") (phpText "a")) :=
  have hhandler : (notesApp answer).commands (osString "notes.save") = some (saveNote answer) := by
    show (if osString "notes.save" = osString "notes.save" then some (saveNote answer) else none) =
      some (saveNote answer)
    exact if_pos rfl
  .command (by decide) (by decide) (by decide) hhandler

theorem save_line_short : (osString (notesRequest 1)).length < maxMessageBytes := by
  rw [notes_request_length]
  decide

theorem notes_decoder_reads :
    notesDecoder (osString (notesRequest 1) ++ [newline]) = some (.array saveRequest) := if_pos rfl

theorem save_handled (answer : PhpValue) :
    handleLine (notesApp answer) notesDecoder (osString (notesRequest 1) ++ [newline]) 0 =
      (success 2 answer [] [], 1) :=
  handle_request save_line_short notes_decoder_reads 0 (save_request answer) (save_address answer)

theorem one_and_half_line (float : PhpFloat) : '\n' ∉ (oneAndHalf float).toList := by
  show '\n' ∉ "1.5".toList
  decide

/-- The host hears that the note is saved. -/
theorem saved_note_answered :
    Answered (notesApp (phpText "saved")) notesDecoder oneAndHalf (notesReader (phpText "saved"))
      (osString (notesRequest 1)) 2 0 1 := by
  have hnesting : (phpText "saved").nesting + 1 < recursionLimit := by decide
  have hdeliverable : Deliverable oneAndHalf (2 : UInt64).toNat (.returned (phpText "saved")) := by
    refine ⟨encodable_text _, ?_, ?_, hnesting, ?_, ?_, ?_⟩
    · exact fun _ hmem => absurd hmem List.not_mem_nil
    · exact fun _ hmem => absurd hmem List.not_mem_nil
    · exact fun _ hmem => absurd hmem List.not_mem_nil
    · exact fun _ hmem => absurd hmem List.not_mem_nil
    · rw [successSize, size_text]
      decide
  refine (answered_iff (notesApp (phpText "saved")) notesDecoder oneAndHalf
    (notesReader (phpText "saved")) (osString (notesRequest 1)) saveRequest 2 (osString "main")
    (osString "notes.save") (phpText "a") (saveNote (phpText "saved")) _ 0 (notes_request_line 1)
    save_line_short.le notes_decoder_reads (save_request _) (save_address _) one_and_half_line
    ?_).mpr ⟨save_line_short, hdeliverable⟩
  intro json hjson
  rw [save_handled] at hjson
  exact notes_reader_reads hnesting hjson

/-- A handler that returns a byte which is no text kills the worker. -/
theorem byte_kills_worker :
    ¬ Answered (notesApp (.string [0xff])) notesDecoder oneAndHalf (notesReader (.string [0xff]))
      (osString (notesRequest 1)) 2 0 1 := by
  intro hanswered
  have hhandle := handle_request save_line_short notes_decoder_reads 0
    (save_request (.string [0xff])) (save_address (.string [0xff]))
  have hparse : ∀ json, jsonEncode oneAndHalf 0 (success 2 (.string [0xff]) [] []) = some json →
      notesReader (.string [0xff]) (String.ofList (jsonText json) ++ "\n") =
        if json.depth < recursionLimit then some json else none :=
    fun json hjson => notes_reader_reads (by decide) hjson
  have hprintable := (answered_outcome (notes_request_line 1) save_line_short.le hhandle
    one_and_half_line hparse).mp hanswered
  exact absurd (Printable.encodable hprintable) (by decide)

end Notes

end PamDesktop.Php.Serving
