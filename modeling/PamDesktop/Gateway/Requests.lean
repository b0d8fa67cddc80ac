import PamDesktop.Foundations.Transition
import PamDesktop.Protocol.Validation

/-!
# Requests in flight and the cancellation registry

The gateway's `invoke`, `emit`, `plugin_invoke` and `cancel` handlers as one system of atomic
steps: every access to the registry of cancellation tokens and to the counter of active commands
is an event. A handler is in flight from its entry in the registry to the removal of that entry,
and it can be dropped where it awaits its blocking task. The two main results are exact: the
registry has the token of every request in flight as long as no request arrives under a key in
flight, and it has no other entries as long as no handler is dropped.
-/

namespace PamDesktop.Gateway

open Foundations Protocol

/-- `RequestKey`. -/
structure RequestKey where
  windowId : String
  requestId : UInt64
deriving DecidableEq

/-- The identity of a `CancellationToken`, which is shared between a handler, its blocking task
and the registry. -/
abbrev Token := Nat

/-- The two functions that register requests: `execute_request` and `plugin_invoke`. -/
inductive Endpoint where
  | command
  | plugin
deriving DecidableEq

/-- Where the handler of a request in flight is: it is registered, it awaits its blocking task, or
it has left the counter of active commands again. -/
inductive Phase where
  | admitted
  | running
  | counted
deriving DecidableEq

/-- Where a handler is when its request is registered: `plugin_invoke` does not count commands. -/
def Endpoint.start : Endpoint → Phase
  | .command => .admitted
  | .plugin => .running

/-- A request in flight. -/
structure Handler where
  endpoint : Endpoint
  key : RequestKey
  token : Token
  phase : Phase
deriving DecidableEq

/-- The part of `GatewayState` that requests and cancellations share. -/
structure GatewayState where
  cancellations : RequestKey → Option Token
  cancelled : Token → Bool
  activeCommands : UInt64
  nextToken : Token
  handlers : List Handler

/-- The state in which the gateway starts. -/
def GatewayState.initial : GatewayState where
  cancellations _ := none
  cancelled _ := false
  activeCommands := 0
  nextToken := 0
  handlers := []

/-- What the gateway was started with. -/
structure Bridge where
  origin : String
  token : String

/-- The headers of a request that the gateway reads. -/
structure Headers where
  origin : Option String
  bridge : Option String

/-- What the gateway reads from the bootstrap at the time of a request. -/
structure Bootstrap where
  windows : List String
  defaultTimeoutMs : UInt64

/-- The bodies of the requests that run something. -/
inductive Request where
  | invoke (requestId : UInt64) (command windowId : String) (timeoutMs : Option UInt64)
      (traceparent : Option String)
  | emit (requestId : UInt64) (name windowId : String) (timeoutMs : Option UInt64)
  | pluginInvoke (requestId : UInt64) (windowId plugin command : String)
      (timeoutMs : Option UInt64)

/-- `client_failure`: the answer to a request that is turned away. -/
structure Failure where
  status : Nat
  code : ErrorCode
  message : String
deriving DecidableEq

/-- `MIN_COMMAND_TIMEOUT_MS`. -/
def minCommandTimeoutMs : UInt64 := 100

/-- `MAX_COMMAND_TIMEOUT_MS`. -/
def maxCommandTimeoutMs : UInt64 := 120000

/-- `authorized`. -/
def authorized (bridge : Bridge) (headers : Headers) : Bool :=
  headers.origin == some bridge.origin && headers.bridge == some bridge.token

/-- `unauthorized_response`. -/
def unauthorizedResponse : Failure :=
  ⟨403, .unauthorized, "The desktop bridge rejected this origin or token."⟩

/-- The lengths of the four fields of a trace context, and the fields that may not be all zero. -/
def validTraceparent (value : String) : Bool :=
  let parts := value.toList.splitOn '-'
  parts.map List.length == [2, 32, 16, 2] &&
    (parts[0]? == some ['0', '0'] && parts[1]? != some (List.replicate 32 '0') &&
      parts[2]? != some (List.replicate 16 '0')) &&
    parts.all fun part => part.all fun c => isAsciiDigit c || ('a' ≤ c && c ≤ 'f')

/-- The checks that `execute_request` and `plugin_invoke` share: the identity of the request, with
any further condition on it, and the timeout. -/
def checkIdentity (bootstrap : Bootstrap) (requestId : UInt64) (windowId : String)
    (further : Bool) (timeoutMs : Option UInt64) (identityMessage timeoutMessage : String) :
    Except Failure RequestKey :=
  if requestId = 0 ∨ !bootstrap.windows.contains windowId ∨ !further then
    .error ⟨400, .invalidMessage, identityMessage⟩
  else
    let timeoutMs := timeoutMs.getD bootstrap.defaultTimeoutMs
    if timeoutMs < minCommandTimeoutMs ∨ maxCommandTimeoutMs < timeoutMs then
      .error ⟨400, .invalidPayload, timeoutMessage⟩
    else .ok ⟨windowId, requestId⟩

/-- `execute_request` up to the registry. -/
def executeRequest (bootstrap : Bootstrap) (requestId : UInt64) (windowId : String)
    (timeoutMs : Option UInt64) : Except Failure RequestKey :=
  checkIdentity bootstrap requestId windowId true timeoutMs
    "The bridge request identity is invalid." "The command timeout is outside the allowed range."

/-- `invoke`, `emit` and `plugin_invoke` up to the registry: the endpoint and the key. -/
def admission (bridge : Bridge) (bootstrap : Bootstrap) (headers : Headers) :
    Request → Except Failure (Endpoint × RequestKey)
  | .invoke requestId command windowId timeoutMs traceparent =>
      if !authorized bridge headers then .error unauthorizedResponse
      else if !(validateIdentifier command "command").isOk then
        .error ⟨400, .invalidMessage, "The command name is invalid."⟩
      else if !(traceparent.all validTraceparent) then
        .error ⟨400, .invalidMessage, "The traceparent is not a valid W3C version 00 context."⟩
      else (executeRequest bootstrap requestId windowId timeoutMs).map fun key => (.command, key)
  | .emit requestId name windowId timeoutMs =>
      if !authorized bridge headers then .error unauthorizedResponse
      else if !(validateIdentifier name "event").isOk then
        .error ⟨400, .invalidMessage, "The event name is invalid."⟩
      else (executeRequest bootstrap requestId windowId timeoutMs).map fun key => (.command, key)
  | .pluginInvoke requestId windowId plugin command timeoutMs =>
      if !authorized bridge headers then .error unauthorizedResponse
      else (checkIdentity bootstrap requestId windowId
        ((validateIdentifier plugin "plugin").isOk &&
          (validateIdentifier command "plugin command").isOk) timeoutMs
        "The Rust plugin invocation identity is invalid."
        "The Rust plugin timeout is outside the allowed range.").map fun key => (.plugin, key)

/-- The answer to a request whose key is taken. -/
def conflict : Failure :=
  ⟨409, .invalidMessage, "The bridge request identifier is already active."⟩

/-- The atomic steps. A request is checked and registered in one step; the later steps of its
handler are named by its token. -/
inductive Event where
  | request (bootstrap : Bootstrap) (headers : Headers) (request : Request)
  | count (token : Token)
  | complete (token : Token)
  | release (token : Token)
  | abandon (token : Token)
  | cancel (headers : Headers) (key : RequestKey)

namespace GatewayState

/-- `cancellations.insert(key, token).is_some()`, and the handler if the request is admitted. -/
def register (s : GatewayState) (endpoint : Endpoint) (key : RequestKey) :
    Except Failure Unit × GatewayState :=
  let token := s.nextToken
  let inserted :=
    { s with cancellations := Function.update s.cancellations key (some token),
             nextToken := token + 1 }
  if (s.cancellations key).isSome then (.error conflict, inserted)
  else
    (.ok (), { inserted with handlers := ⟨endpoint, key, token, endpoint.start⟩ :: s.handlers })

/-- `cancellations.remove(&key)`. -/
def remove (s : GatewayState) (key : RequestKey) : GatewayState :=
  { s with cancellations := Function.update s.cancellations key none }

/-- A handler in flight, by its token. -/
def find (s : GatewayState) (token : Token) : Option Handler :=
  s.handlers.find? fun handler => handler.token = token

/-- A handler is no longer in flight. -/
def drop (s : GatewayState) (handler : Handler) : GatewayState :=
  { s with handlers := s.handlers.erase handler }

/-- A handler has moved on. -/
def move (s : GatewayState) (handler : Handler) (phase : Phase) : GatewayState :=
  { s with handlers := { handler with phase } :: s.handlers.erase handler }

end GatewayState

/-- What an event does. -/
def step (bridge : Bridge) (s : GatewayState) : Event → Option GatewayState
  | .request bootstrap headers request =>
      match admission bridge bootstrap headers request with
      | .error _ => some s
      | .ok (endpoint, key) => some (s.register endpoint key).2
  | .count token => do
      -- `active_commands.fetch_add(1)`
      let handler ← s.find token
      if handler.phase = .admitted then
        some { s.move handler .running with activeCommands := s.activeCommands + 1 }
      else none
  | .complete token => do
      let handler ← s.find token
      if handler.phase = .running then
        match handler.endpoint with
        -- `active_commands.fetch_sub(1)`
        | .command => some { s.move handler .counted with activeCommands := s.activeCommands - 1 }
        | .plugin => some ((s.drop handler).remove handler.key)
      else none
  | .release token => do
      let handler ← s.find token
      if handler.phase = .counted then some ((s.drop handler).remove handler.key) else none
  | .abandon token => do
      -- the server drops the future at its await point: nothing after it runs
      let handler ← s.find token
      if handler.phase = .running then some (s.drop handler) else none
  | .cancel headers key =>
      if !authorized bridge headers then some s
      else
        match s.cancellations key with
        | none => some s
        | some token => some { s with cancelled := Function.update s.cancelled token true }

/-- The handlers of a gateway as a system. -/
def requests (bridge : Bridge) : System GatewayState Event := ⟨step bridge⟩

/-! ## Steps

What a step can do to the handlers, the registry and the counter, once for all invariants. -/

namespace GatewayState

theorem find_mem {s : GatewayState} {token : Token} {handler : Handler}
    (h : s.find token = some handler) : handler ∈ s.handlers :=
  List.mem_of_find?_eq_some h

/-- A handler in flight and the others. -/
theorem handlers_perm {s : GatewayState} {handler : Handler} (h : handler ∈ s.handlers) :
    s.handlers.Perm (handler :: s.handlers.erase handler) :=
  List.perm_cons_erase h

end GatewayState

/-- One step of the system, told apart by what it does. -/
inductive Outcome (bridge : Bridge) (s : GatewayState) : Event → GatewayState → Prop where
  | rejected {bootstrap headers request failure}
      (h : admission bridge bootstrap headers request = .error failure) :
      Outcome bridge s (.request bootstrap headers request) s
  | refused {bootstrap headers request endpoint key}
      (hadmission : admission bridge bootstrap headers request = .ok (endpoint, key))
      (h : (s.cancellations key).isSome = true) :
      Outcome bridge s (.request bootstrap headers request)
        { s with cancellations := Function.update s.cancellations key (some s.nextToken),
                 nextToken := s.nextToken + 1 }
  | admitted {bootstrap headers request endpoint key}
      (hadmission : admission bridge bootstrap headers request = .ok (endpoint, key))
      (h : s.cancellations key = none) :
      Outcome bridge s (.request bootstrap headers request)
        { s with cancellations := Function.update s.cancellations key (some s.nextToken),
                 nextToken := s.nextToken + 1,
                 handlers := ⟨endpoint, key, s.nextToken, endpoint.start⟩ :: s.handlers }
  | counted {token} (handler : Handler) (h : handler ∈ s.handlers)
      (hphase : handler.phase = .admitted) :
      Outcome bridge s (.count token)
        { s.move handler .running with activeCommands := s.activeCommands + 1 }
  | completed {token} (handler : Handler) (h : handler ∈ s.handlers)
      (hphase : handler.phase = .running) (hcommand : handler.endpoint = .command) :
      Outcome bridge s (.complete token)
        { s.move handler .counted with activeCommands := s.activeCommands - 1 }
  | answered {token} (handler : Handler) (h : handler ∈ s.handlers)
      (hplugin : handler.endpoint = .plugin) :
      Outcome bridge s (.complete token) ((s.drop handler).remove handler.key)
  | released {token} (handler : Handler) (h : handler ∈ s.handlers)
      (hphase : handler.phase = .counted) :
      Outcome bridge s (.release token) ((s.drop handler).remove handler.key)
  | abandoned {token} (handler : Handler) (h : handler ∈ s.handlers)
      (hphase : handler.phase = .running) :
      Outcome bridge s (.abandon token) (s.drop handler)
  | cancelled {headers key} (tokens : Token → Bool) :
      Outcome bridge s (.cancel headers key) { s with cancelled := tokens }

/-- Every step has one of these outcomes. -/
theorem step_outcome {bridge : Bridge} {s s' : GatewayState} {event : Event}
    (h : step bridge s event = some s') : Outcome bridge s event s' := by
  cases event with
  | request bootstrap headers request =>
      cases hadmission : admission bridge bootstrap headers request with
      | error failure =>
          obtain rfl : s = s' := by simpa [step, hadmission] using h
          exact .rejected hadmission
      | ok admitted =>
          obtain ⟨endpoint, key⟩ := admitted
          cases hkey : s.cancellations key with
          | some token =>
              obtain rfl : _ = s' := by
                simpa [step, hadmission, GatewayState.register, hkey] using h
              exact .refused hadmission (by simp [hkey])
          | none =>
              obtain rfl : _ = s' := by
                simpa [step, hadmission, GatewayState.register, hkey] using h
              exact .admitted hadmission hkey
  | count token =>
      obtain ⟨handler, hfind, h⟩ := Option.bind_eq_some_iff.mp h
      split at h
      · obtain rfl := Option.some.inj h
        exact .counted handler (GatewayState.find_mem hfind) ‹_›
      · cases h
  | complete token =>
      obtain ⟨handler, hfind, h⟩ := Option.bind_eq_some_iff.mp h
      split at h
      · split at h
        · obtain rfl := Option.some.inj h
          exact .completed handler (GatewayState.find_mem hfind) ‹_› ‹_›
        · obtain rfl := Option.some.inj h
          exact .answered handler (GatewayState.find_mem hfind) ‹_›
      · cases h
  | release token =>
      obtain ⟨handler, hfind, h⟩ := Option.bind_eq_some_iff.mp h
      split at h
      · obtain rfl := Option.some.inj h
        exact .released handler (GatewayState.find_mem hfind) ‹_›
      · cases h
  | abandon token =>
      obtain ⟨handler, hfind, h⟩ := Option.bind_eq_some_iff.mp h
      split at h
      · obtain rfl := Option.some.inj h
        exact .abandoned handler (GatewayState.find_mem hfind) ‹_›
      · cases h
  | cancel headers key =>
      simp only [step] at h
      split at h
      · obtain rfl := Option.some.inj h
        exact .cancelled s.cancelled
      · split at h
        · obtain rfl := Option.some.inj h
          exact .cancelled s.cancelled
        · obtain rfl := Option.some.inj h
          exact .cancelled _

/-! ## The token of a request in flight -/

/-- Tokens are fresh, no two requests in flight share a key, and only commands are counted. -/
structure WellFormed (s : GatewayState) : Prop where
  fresh : ∀ handler ∈ s.handlers, handler.token < s.nextToken
  keys : (s.handlers.map Handler.key).Nodup
  commands : ∀ handler ∈ s.handlers, handler.phase ≠ .running → handler.endpoint = .command

theorem initial_well_formed : WellFormed .initial where
  fresh := by simp [GatewayState.initial]
  keys := by simp [GatewayState.initial]
  commands := by simp [GatewayState.initial]

/-- The other handlers in flight have other keys. -/
theorem WellFormed.erase_key {s : GatewayState} (h : WellFormed s) {handler other : Handler}
    (hmem : handler ∈ s.handlers) (hother : other ∈ s.handlers.erase handler) :
    other.key ≠ handler.key := by
  have hkeys := ((GatewayState.handlers_perm hmem).map Handler.key).nodup_iff.mp h.keys
  rw [List.map_cons, List.nodup_cons] at hkeys
  intro heq
  exact hkeys.1 (heq ▸ List.mem_map_of_mem hother)

/-- A handler that moves on keeps its key and its token. -/
theorem WellFormed.move {s : GatewayState} (h : WellFormed s) {handler : Handler}
    (hmem : handler ∈ s.handlers) (phase : Phase) (active : UInt64)
    (hcommand : handler.endpoint = .command) :
    WellFormed { s.move handler phase with activeCommands := active } where
  fresh other hother := by
    rcases List.mem_cons.mp hother with rfl | hother
    · exact h.fresh handler hmem
    · exact h.fresh other (List.mem_of_mem_erase hother)
  keys := ((GatewayState.handlers_perm hmem).map Handler.key).nodup_iff.mp h.keys
  commands other hother hphase := by
    rcases List.mem_cons.mp hother with rfl | hother
    · exact hcommand
    · exact h.commands other (List.mem_of_mem_erase hother) hphase

/-- Fewer handlers are still well formed. -/
theorem WellFormed.drop {s : GatewayState} (h : WellFormed s) (handler : Handler) :
    WellFormed (s.drop handler) where
  fresh other hother := h.fresh other (List.mem_of_mem_erase hother)
  keys := h.keys.sublist ((List.erase_sublist).map Handler.key)
  commands other hother := h.commands other (List.mem_of_mem_erase hother)

/-- A step keeps the handlers well formed, if no request is admitted under a key in flight. -/
theorem Outcome.well_formed {bridge : Bridge} {s s' : GatewayState} {event : Event}
    (h : Outcome bridge s event s') (hs : WellFormed s)
    (hregistered : ∀ handler ∈ s.handlers, (s.cancellations handler.key).isSome = true) :
    WellFormed s' := by
  cases h with
  | rejected _ => exact hs
  | refused _ _ =>
      exact ⟨fun handler hmem => Nat.lt_succ_of_lt (hs.fresh handler hmem), hs.keys, hs.commands⟩
  | @admitted _ _ _ endpoint key _ hnone =>
      refine ⟨fun handler hmem => ?_, ?_, fun handler hmem hphase => ?_⟩
      · rcases List.mem_cons.mp hmem with rfl | hmem
        · exact Nat.lt_succ_self _
        · exact Nat.lt_succ_of_lt (hs.fresh handler hmem)
      · refine List.nodup_cons.mpr ⟨?_, hs.keys⟩
        intro hkey
        obtain ⟨handler, hmem, rfl⟩ := List.mem_map.mp hkey
        have hsome := hregistered handler hmem
        rw [hnone] at hsome
        cases hsome
      · rcases List.mem_cons.mp hmem with rfl | hmem
        · cases endpoint with
          | command => rfl
          | plugin => exact absurd rfl hphase
        · exact hs.commands handler hmem hphase
  | counted handler hmem hphase =>
      have hcommand := hs.commands handler hmem (by rw [hphase]; decide)
      exact hs.move hmem _ _ hcommand
  | completed handler hmem _ hcommand => exact hs.move hmem _ _ hcommand
  | answered handler _ _ =>
      have hdrop := hs.drop handler
      exact ⟨hdrop.fresh, hdrop.keys, hdrop.commands⟩
  | released handler _ _ =>
      have hdrop := hs.drop handler
      exact ⟨hdrop.fresh, hdrop.keys, hdrop.commands⟩
  | abandoned handler _ _ => exact hs.drop handler
  | cancelled tokens => exact ⟨hs.fresh, hs.keys, hs.commands⟩

/-- The registry has the token of every request in flight. -/
def Registered (s : GatewayState) : Prop :=
  ∀ handler ∈ s.handlers, s.cancellations handler.key = some handler.token

/-- The registry has the token of every request in flight, and cancelling the key of one sets the
token that it polls. -/
structure CancelReaches (bridge : Bridge) (s : GatewayState) : Prop where
  registered : Registered s
  cancels : ∀ handler ∈ s.handlers, ∀ headers, authorized bridge headers = true →
    ∃ s', step bridge s (.cancel headers handler.key) = some s' ∧ s'.cancelled handler.token = true

/-- That cancelling reaches the request follows from the registry. -/
theorem cancel_reaches_iff {bridge : Bridge} {s : GatewayState} :
    CancelReaches bridge s ↔ Registered s := by
  refine ⟨CancelReaches.registered, fun hregistered => ⟨hregistered, ?_⟩⟩
  intro handler hmem headers hauthorized
  refine ⟨{ s with cancelled := Function.update s.cancelled handler.token true }, ?_, ?_⟩
  · simp [step, hauthorized, hregistered handler hmem]
  · simp

/-- The request does not come under the key of a request in flight. -/
def NoDuplicate (bridge : Bridge) (s : GatewayState) : Event → Prop
  | .request bootstrap headers request => ∀ endpoint key,
      admission bridge bootstrap headers request = .ok (endpoint, key) →
        ∀ handler ∈ s.handlers, handler.key ≠ key
  | _ => True

/-- Removing the entry of a handler that ends leaves the entries of the others. -/
theorem Registered.remove {s : GatewayState} (h : Registered s) (hs : WellFormed s)
    {handler : Handler} (hmem : handler ∈ s.handlers) :
    Registered ((s.drop handler).remove handler.key) := by
  intro other hother
  have hkey : other.key ≠ handler.key := hs.erase_key hmem hother
  have hupdate : Function.update s.cancellations handler.key none other.key =
      s.cancellations other.key := Function.update_of_ne hkey _ _
  exact hupdate.trans (h other (List.mem_of_mem_erase hother))

theorem Registered.move {s : GatewayState} (h : Registered s) {handler : Handler}
    (hmem : handler ∈ s.handlers) (phase : Phase) : Registered (s.move handler phase) := by
  intro other hother
  rcases List.mem_cons.mp hother with rfl | hother
  · exact h handler hmem
  · exact h other (List.mem_of_mem_erase hother)

/-- A step keeps the registry exactly when it is no request under a key in flight. -/
theorem Outcome.registered_iff {bridge : Bridge} {s s' : GatewayState} {event : Event}
    (h : Outcome bridge s event s') (hs : WellFormed s) (hregistered : Registered s) :
    NoDuplicate bridge s event ↔ Registered s' := by
  cases h with
  | rejected hadmission =>
      refine iff_of_true ?_ hregistered
      intro endpoint key hok
      rw [hadmission] at hok
      cases hok
  | @refused _ _ _ endpoint key hadmission _ =>
      constructor
      · intro hnone handler hmem
        have hkey : handler.key ≠ key := hnone endpoint key hadmission handler hmem
        exact (Function.update_of_ne hkey _ _).trans (hregistered handler hmem)
      · intro hafter endpoint' key' hok handler hmem heq
        rw [hadmission] at hok
        obtain ⟨rfl, rfl⟩ := Prod.mk.inj (Except.ok.inj hok)
        -- the entry under this key is now the token of the request that was refused
        have hentry : Function.update s.cancellations key (some s.nextToken) handler.key =
            some handler.token := hafter handler hmem
        rw [heq, Function.update_self] at hentry
        exact Nat.ne_of_gt (hs.fresh handler hmem) (Option.some.inj hentry)
  | @admitted _ _ _ endpoint key hadmission hnone =>
      have hfree : ∀ handler ∈ s.handlers, handler.key ≠ key := by
        rintro handler hmem rfl
        rw [hregistered handler hmem] at hnone
        cases hnone
      constructor
      · rintro - handler hmem
        rcases List.mem_cons.mp hmem with rfl | hmem
        · exact Function.update_self _ _ _
        · exact (Function.update_of_ne (hfree handler hmem) _ _).trans (hregistered handler hmem)
      · rintro - endpoint' key' hok
        rw [hadmission] at hok
        obtain ⟨rfl, rfl⟩ := Prod.mk.inj (Except.ok.inj hok)
        exact hfree
  | counted handler hmem _ => exact iff_of_true trivial (hregistered.move hmem _)
  | completed handler hmem _ _ => exact iff_of_true trivial (hregistered.move hmem _)
  | answered handler hmem _ => exact iff_of_true trivial (hregistered.remove hs hmem)
  | released handler hmem _ => exact iff_of_true trivial (hregistered.remove hs hmem)
  | abandoned handler _ _ =>
      refine iff_of_true trivial fun other hother => ?_
      exact hregistered other (List.mem_of_mem_erase hother)
  | cancelled tokens => exact iff_of_true trivial hregistered

/-- In a run of the gateway every request in flight can be cancelled in every state exactly when
no request comes under the key of a request in flight. -/
theorem cancel_reaches_active_iff {bridge : Bridge} {events : List Event} {final : GatewayState}
    (hplay : (requests bridge).play .initial events = some final) :
    (requests bridge).Always (CancelReaches bridge) .initial events ↔
      (requests bridge).Throughout (NoDuplicate bridge) .initial events := by
  have hinitial : CancelReaches bridge .initial :=
    cancel_reaches_iff.mpr (by simp [Registered, GatewayState.initial])
  refine System.always_iff_throughout ⟨initial_well_formed, hinitial⟩ hplay ?_
  intro s event s' hs hreaches hnext
  have houtcome := step_outcome hnext
  have hregistered := hreaches.registered
  refine ⟨houtcome.well_formed hs fun handler hmem => ?_, ?_⟩
  · rw [hregistered handler hmem]
    rfl
  · rw [cancel_reaches_iff]
    exact houtcome.registered_iff hs hregistered

/-- A gateway, a page it serves and a request of that page. -/
def notesBridge : Bridge := ⟨"http://127.0.0.1:4170", "5f0c"⟩

def notesHeaders : Headers := ⟨some "http://127.0.0.1:4170", some "5f0c"⟩

def notesKey : RequestKey := ⟨"main", 1⟩

def notesSave : Event :=
  .request ⟨["main"], 30000⟩ notesHeaders (.invoke 1 "notes.save" "main" none none)

/-- The request runs and is cancelled. -/
def notesCancelled : List Event := [notesSave, .count 0, .cancel notesHeaders notesKey]

/-- The request comes a second time while it runs. -/
def notesDuplicated : List Event :=
  [notesSave, .count 0, notesSave, .cancel notesHeaders notesKey]

theorem notes_cancel_reaches :
    (requests notesBridge).Always (CancelReaches notesBridge) .initial notesCancelled := by
  have hplays : ((requests notesBridge).play .initial notesCancelled).isSome = true := by
    decide +kernel
  obtain ⟨final, hplay⟩ := Option.isSome_iff_exists.mp hplays
  refine (cancel_reaches_active_iff hplay).mpr ?_
  exact ⟨fun _ _ _ _ hmem => absurd hmem List.not_mem_nil,
    fun _ _ => ⟨trivial, fun _ _ => ⟨trivial, fun _ _ => trivial⟩⟩⟩

/-- The duplicate is answered with a conflict, and the cancellation sets its token and not the one
that the active request polls. -/
theorem duplicate_takes_cancellation :
    ¬ (requests notesBridge).Always (CancelReaches notesBridge) .initial notesDuplicated ∧
    ((requests notesBridge).play .initial (notesDuplicated.take 2)).any
      (fun s => (s.register .command notesKey).1 = .error conflict) = true ∧
    ((requests notesBridge).play .initial notesDuplicated).any
      (fun s => s.handlers = [⟨.command, notesKey, 0, .running⟩] ∧
        s.cancellations notesKey = some 1 ∧ s.cancelled 0 = false ∧ s.cancelled 1 = true) = true := by
  have hruns : ((requests notesBridge).play .initial notesDuplicated).any
      (fun s => s.handlers = [⟨.command, notesKey, 0, .running⟩] ∧
        s.cancellations notesKey = some 1 ∧ s.cancelled 0 = false ∧ s.cancelled 1 = true) =
          true := by decide +kernel
  refine ⟨fun halways => ?_, by decide +kernel, hruns⟩
  obtain ⟨final, hplay, hfinal⟩ := (Option.any_eq_true _ _).mp hruns
  obtain ⟨hhandlers, hentry, -, -⟩ := of_decide_eq_true hfinal
  have hown := (halways.last hplay).registered _ (hhandlers ▸ List.mem_singleton_self _)
  rw [hentry] at hown
  exact absurd hown (by decide)

/-! ## Endings

What is left of a request when it has ended. -/

/-- The commands that are counted: their handlers await their blocking tasks. -/
def Handler.active (handler : Handler) : Bool :=
  handler.endpoint = .command ∧ handler.phase = .running

/-- The registry has the keys of the requests in flight and no others, the counter is the number
of commands that run, and a key that is not in flight can be used. -/
structure Exact (s : GatewayState) : Prop where
  keys : ∀ key, (s.cancellations key).isSome = true ↔ ∃ handler ∈ s.handlers, handler.key = key
  active : s.activeCommands = UInt64.ofNat (s.handlers.countP Handler.active)
  reusable : ∀ endpoint key, (∀ handler ∈ s.handlers, handler.key ≠ key) →
    (s.register endpoint key).1 = .ok ()

/-- That a key can be used again follows from the registry. -/
theorem exact_of_keys {s : GatewayState}
    (keys : ∀ key, (s.cancellations key).isSome = true ↔ ∃ handler ∈ s.handlers, handler.key = key)
    (active : s.activeCommands = UInt64.ofNat (s.handlers.countP Handler.active)) : Exact s := by
  refine ⟨keys, active, fun endpoint key hfree => ?_⟩
  have hnone : ¬ (s.cancellations key).isSome = true := by
    rintro hsome
    obtain ⟨handler, hmem, hkey⟩ := (keys key).mp hsome
    exact hfree handler hmem hkey
  simp [GatewayState.register, hnone]

/-- No handler is dropped where it awaits its blocking task. -/
def NotAbandoned (_ : GatewayState) : Event → Prop
  | .abandon _ => False
  | _ => True

/-- The counter with and without a handler. -/
theorem count_active {s : GatewayState} {handler : Handler} (hmem : handler ∈ s.handlers) :
    s.handlers.countP Handler.active =
      (s.handlers.erase handler).countP Handler.active + if handler.active then 1 else 0 := by
  rw [(GatewayState.handlers_perm hmem).countP_eq, List.countP_cons]

/-- Moving a handler keeps the keys. -/
theorem Exact.move_keys {s : GatewayState} (h : Exact s) {handler : Handler}
    (hmem : handler ∈ s.handlers) (phase : Phase) (key : RequestKey) :
    (s.cancellations key).isSome = true ↔
      ∃ other ∈ (s.move handler phase).handlers, other.key = key := by
  rw [h.keys key]
  constructor
  · rintro ⟨other, hother, hkey⟩
    rcases List.mem_cons.mp ((GatewayState.handlers_perm hmem).mem_iff.mp hother) with rfl | hother
    · exact ⟨_, List.mem_cons_self, hkey⟩
    · exact ⟨other, List.mem_cons_of_mem _ hother, hkey⟩
  · rintro ⟨other, hother, hkey⟩
    rcases List.mem_cons.mp hother with rfl | hother
    · exact ⟨handler, hmem, hkey⟩
    · exact ⟨other, List.mem_of_mem_erase hother, hkey⟩

/-- A handler that is not counted and removes its key leaves the rest exact. -/
theorem Exact.remove {s : GatewayState} (h : Exact s) (hs : WellFormed s) {handler : Handler}
    (hmem : handler ∈ s.handlers) (hactive : handler.active = false) :
    Exact ((s.drop handler).remove handler.key) := by
  refine exact_of_keys (fun key => ?_) ?_
  · by_cases hkey : key = handler.key
    · subst hkey
      have hgone : ∀ other ∈ s.handlers.erase handler, other.key ≠ handler.key :=
        fun other hother => hs.erase_key hmem hother
      simpa [GatewayState.remove, GatewayState.drop] using hgone
    · have hupdate : Function.update s.cancellations handler.key none key =
          s.cancellations key := Function.update_of_ne hkey _ _
      change (Function.update s.cancellations handler.key none key).isSome = true ↔
        ∃ other ∈ s.handlers.erase handler, other.key = key
      rw [hupdate, h.keys key]
      constructor
      · rintro ⟨other, hother, hother_key⟩
        have hne : other ≠ handler := fun heq => hkey (heq ▸ hother_key.symm)
        exact ⟨other, (List.mem_erase_of_ne hne).mpr hother, hother_key⟩
      · rintro ⟨other, hother, hother_key⟩
        exact ⟨other, List.mem_of_mem_erase hother, hother_key⟩
  · have hcount := count_active hmem
    rw [hactive] at hcount
    exact h.active.trans (congrArg UInt64.ofNat hcount)

/-- A step keeps keys and counter exact exactly when it does not drop a handler. -/
theorem Outcome.exact_iff {bridge : Bridge} {s s' : GatewayState} {event : Event}
    (h : Outcome bridge s event s') (hs : WellFormed s) (hexact : Exact s) :
    NotAbandoned s event ↔ Exact s' := by
  cases h with
  | rejected _ => exact iff_of_true trivial hexact
  | @refused _ _ _ endpoint key _ htaken =>
      refine iff_of_true trivial (exact_of_keys (fun other => ?_) hexact.active)
      rw [← hexact.keys other]
      by_cases hkey : other = key
      · subst hkey
        simp [htaken]
      · simp [Function.update_of_ne hkey]
  | @admitted _ _ _ endpoint key _ hnone =>
      refine iff_of_true trivial (exact_of_keys (fun other => ?_) ?_)
      · by_cases hkey : other = key
        · subst hkey
          simp
        · simp only [Function.update_of_ne hkey, List.mem_cons, exists_eq_or_imp,
            hexact.keys other, Ne.symm hkey, false_or]
      · -- a request is not counted when it is registered
        have hidle : Handler.active ⟨endpoint, key, s.nextToken, endpoint.start⟩ = false := by
          cases endpoint <;> rfl
        rw [List.countP_cons, hidle]
        exact hexact.active
  | counted handler hmem hphase =>
      refine iff_of_true trivial (exact_of_keys (hexact.move_keys hmem _) ?_)
      have hcommand := hs.commands handler hmem (by rw [hphase]; decide)
      have hidle : handler.active = false := by simp [Handler.active, hphase]
      have hactive : Handler.active { handler with phase := .running } = true := by
        simp [Handler.active, hcommand]
      have hcount := count_active hmem
      rw [hidle] at hcount
      change s.activeCommands + 1 = UInt64.ofNat
        (({ handler with phase := .running } :: s.handlers.erase handler).countP Handler.active)
      rw [List.countP_cons, hactive, hexact.active, hcount]
      exact (UInt64.ofNat_add _ 1).symm
  | completed handler hmem hphase hcommand =>
      refine iff_of_true trivial (exact_of_keys (hexact.move_keys hmem _) ?_)
      have hactive : handler.active = true := by simp [Handler.active, hphase, hcommand]
      have hidle : Handler.active { handler with phase := .counted } = false := by
        simp [Handler.active]
      have hcount := count_active hmem
      rw [hactive] at hcount
      change s.activeCommands - 1 = UInt64.ofNat
        (({ handler with phase := .counted } :: s.handlers.erase handler).countP Handler.active)
      rw [List.countP_cons, hidle, hexact.active, hcount, UInt64.ofNat_add]
      exact UInt64.add_sub_cancel _ _
  | answered handler hmem hplugin =>
      refine iff_of_true trivial (hexact.remove hs hmem ?_)
      simp [Handler.active, hplugin]
  | released handler hmem hphase =>
      refine iff_of_true trivial (hexact.remove hs hmem ?_)
      simp [Handler.active, hphase]
  | abandoned handler hmem _ =>
      refine iff_of_false id fun hafter => ?_
      -- its key is still in the registry, and no other handler has it
      have hentry : (s.cancellations handler.key).isSome = true :=
        (hexact.keys _).mpr ⟨handler, hmem, rfl⟩
      obtain ⟨other, hother, hkey⟩ := (hafter.keys handler.key).mp hentry
      exact hs.erase_key hmem hother hkey
  | cancelled tokens => exact iff_of_true trivial (exact_of_keys hexact.keys hexact.active)

/-- In a run of the gateway the registry and the counter are exact in every state exactly when no
handler is dropped where it awaits its blocking task. -/
theorem requests_released_iff {bridge : Bridge} {events : List Event} {final : GatewayState}
    (hplay : (requests bridge).play .initial events = some final) :
    (requests bridge).Always Exact .initial events ↔
      (requests bridge).Throughout NotAbandoned .initial events := by
  have hinitial : Exact .initial :=
    exact_of_keys (by simp [GatewayState.initial]) (by simp [GatewayState.initial])
  refine System.always_iff_throughout ⟨initial_well_formed, hinitial⟩ hplay ?_
  intro s event s' hs hexact hnext
  have houtcome := step_outcome hnext
  refine ⟨houtcome.well_formed hs fun handler hmem => ?_, houtcome.exact_iff hs hexact⟩
  exact (hexact.keys handler.key).mpr ⟨handler, hmem, rfl⟩

/-- The request is answered. -/
def notesAnswered : List Event := [notesSave, .count 0, .complete 0, .release 0]

/-- The page goes away while the request runs. -/
def notesAbandoned : List Event := [notesSave, .count 0, .abandon 0]

theorem notes_released : (requests notesBridge).Always Exact .initial notesAnswered := by
  have hplays : ((requests notesBridge).play .initial notesAnswered).isSome = true := by
    decide +kernel
  obtain ⟨final, hplay⟩ := Option.isSome_iff_exists.mp hplays
  refine (requests_released_iff hplay).mpr ?_
  exact ⟨trivial, fun _ _ => ⟨trivial, fun _ _ => ⟨trivial, fun _ _ => ⟨trivial, fun _ _ =>
    trivial⟩⟩⟩⟩

/-- Nothing is in flight, but the key is taken, the counter is not zero, and the same request of the
reloaded page is answered with a conflict. -/
theorem abandoned_request_not_released :
    ¬ (requests notesBridge).Always Exact .initial notesAbandoned ∧
    ((requests notesBridge).play .initial notesAbandoned).any
      (fun s => s.handlers = [] ∧ (s.cancellations notesKey).isSome ∧ s.activeCommands = 1 ∧
        (s.register .command notesKey).1 = .error conflict) = true := by
  have hruns : ((requests notesBridge).play .initial notesAbandoned).any
      (fun s => s.handlers = [] ∧ (s.cancellations notesKey).isSome ∧ s.activeCommands = 1 ∧
        (s.register .command notesKey).1 = .error conflict) = true := by decide +kernel
  refine ⟨fun halways => ?_, hruns⟩
  obtain ⟨final, hplay, hfinal⟩ := (Option.any_eq_true _ _).mp hruns
  obtain ⟨hhandlers, hentry, -, -⟩ := of_decide_eq_true hfinal
  obtain ⟨handler, hmem, -⟩ := ((halways.last hplay).keys notesKey).mp hentry
  rw [hhandlers] at hmem
  cases hmem

end PamDesktop.Gateway
