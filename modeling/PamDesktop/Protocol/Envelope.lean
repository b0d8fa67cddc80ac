import PamDesktop.Protocol.Manifest

/-!
# Envelopes of the JSON-lines protocols

Requests and responses between the host, the PHP worker and the Rust plugins, over any type of
JSON value, with the checks that both ends make on what they receive.
-/

namespace PamDesktop.Protocol

/-- `PLUGIN_PROTOCOL_VERSION`. -/
def pluginProtocolVersion : Nat := 1

/-- `BOOT_COMMAND`. -/
def bootCommand : String := "@pam/boot"

/-- `PLUGIN_BOOT_COMMAND`. -/
def pluginBootCommand : String := "@pam/plugin/boot"

/-- `MAIN_WINDOW_ID`. -/
def mainWindowId : String := "main"

/-- The number of an error code on the wire. -/
def ErrorCode.number (code : ErrorCode) : Nat := code.ctorIdx + 1

inductive MessageKind where
  | request | response
deriving DecidableEq

inductive ResponseStatus where
  | success | failure
deriving DecidableEq

inductive EffectKind where
  | setWindowTitle | setWindowVisible | closeWindow | focusWindow | setMenuItemEnabled
  | setMenuItemChecked | setTrayVisible | setWindowFullscreen | setWindowMaximized
  | setWindowAlwaysOnTop | setWindowAttention | setApplicationBadge | setTaskbarProgress
  | quitApplication
deriving DecidableEq

structure ProtocolError where
  code : ErrorCode
  message : String
deriving DecidableEq

structure Effect (Value : Type) where
  kind : EffectKind
  windowId : String
  payload : Value

structure ClientEvent (Value : Type) where
  name : String
  payload : Value
  windowId : Option String

structure RequestEnvelope (Value : Type) where
  version : Nat
  id : UInt64
  kind : MessageKind
  command : String
  windowId : String
  payload : Value

structure ResponseEnvelope (Value : Type) where
  version : Nat
  id : UInt64
  kind : MessageKind
  status : ResponseStatus
  payload : Value
  effects : List (Effect Value)
  events : List (ClientEvent Value)
  error : Option ProtocolError

structure PluginRequestEnvelope (Value : Type) where
  version : Nat
  id : UInt64
  kind : MessageKind
  command : String
  payload : Value

structure PluginResponseEnvelope (Value : Type) where
  version : Nat
  id : UInt64
  kind : MessageKind
  status : ResponseStatus
  payload : Value
  events : List (ClientEvent Value)
  error : Option ProtocolError

structure PluginMetadata where
  identifier : String
  name : String
  version : String
  commands : List String
deriving DecidableEq

variable {Value : Type}

/-- `RequestEnvelope::for_window`. -/
def RequestEnvelope.forWindow (id : UInt64) (command windowId : String) (payload : Value) :
    RequestEnvelope Value where
  version := protocolVersion
  id := id
  kind := .request
  command := command
  windowId := windowId
  payload := payload

/-- `PluginRequestEnvelope::new`. -/
def PluginRequestEnvelope.new (id : UInt64) (command : String) (payload : Value) :
    PluginRequestEnvelope Value where
  version := pluginProtocolVersion
  id := id
  kind := .request
  command := command
  payload := payload

/-- `ClientEvent::validate`. -/
def ClientEvent.validate (event : ClientEvent Value) : Except String Unit := do
  validateIdentifier event.name "event"
  match event.windowId with
  | some windowId => validateIdentifier windowId "window"
  | none => .ok ()

/-- `ResponseEnvelope::validate_for`. -/
def ResponseEnvelope.validateFor (response : ResponseEnvelope Value) (requestId : UInt64) :
    Except String Unit :=
  if response.version ≠ protocolVersion then
    .error ("worker protocol " ++ toString response.version ++
      " is incompatible with host protocol " ++ toString protocolVersion)
  else if response.kind ≠ .response then .error "worker returned a non-response message"
  else if response.id ≠ requestId then
    .error ("worker response id " ++ toString response.id ++ " does not match request id " ++
      toString requestId)
  else if response.status = .failure ∧ response.error.isNone then
    .error "worker returned failure without an error"
  else .ok ()

/-- `PluginResponseEnvelope::validate_for`. -/
def PluginResponseEnvelope.validateFor (response : PluginResponseEnvelope Value)
    (requestId : UInt64) : Except String Unit :=
  if response.version ≠ pluginProtocolVersion then
    .error ("plugin protocol " ++ toString response.version ++
      " is incompatible with host plugin protocol " ++ toString pluginProtocolVersion)
  else if response.kind ≠ .response ∨ response.id ≠ requestId then
    .error "plugin response identity does not match its request"
  else if response.status = .failure ∧ response.error.isNone then
    .error "plugin returned failure without an error"
  else response.events.forM ClientEvent.validate

/-- The commands that a plugin exports; `seen` holds those already accepted. -/
def validateExports (seen : List String) : List String → Except String Unit
  | [] => .ok ()
  | command :: rest => do
      validateIdentifier command "plugin command"
      if seen.contains command then
        .error ("plugin command " ++ debugText command ++ " is duplicated")
      else validateExports (command :: seen) rest

/-- `PluginMetadata::validate`. -/
def PluginMetadata.validate (metadata : PluginMetadata) : Except String Unit := do
  validateIdentifier metadata.identifier "plugin"
  validateText metadata.name "plugin name" 80 false
  validateVersion metadata.version
  if metadata.commands = [] then .error "Rust plugins must export at least one command"
  else validateExports [] metadata.commands

/-- A response that passes for a request carries its identifier. -/
theorem ResponseEnvelope.id_of_validate_for {response : ResponseEnvelope Value}
    {requestId : UInt64} (h : response.validateFor requestId = .ok ()) :
    response.id = requestId := by
  unfold validateFor at h
  by_contra hid
  simp only [hid, ne_eq, not_false_eq_true, ite_true] at h
  split at h
  · cases h
  · split at h <;> cases h

end PamDesktop.Protocol
