import Mathlib

/-! Envelopes between agents and the checks of the router. The content is JSON that the router
serializes, hashes and parses by the schema of its artifact; instants are those of the UTC clock. -/
namespace MapGo.Messages

inductive AgentEndpoint where
  | user | system | supervisor | intent | search | safety | planner | critic | companion | replanner
  | toolRuntime | finalAnswer
  deriving DecidableEq, Repr

def AgentEndpoint.value : AgentEndpoint → String
  | .user => "user"
  | .system => "system"
  | .supervisor => "supervisor"
  | .intent => "intent"
  | .search => "search"
  | .safety => "safety"
  | .planner => "planner"
  | .critic => "critic"
  | .companion => "companion"
  | .replanner => "replanner"
  | .toolRuntime => "tool_runtime"
  | .finalAnswer => "final_answer"

inductive AgentMessageType where
  | command | event | artifact | result | error | toolRequest | toolResult
  deriving DecidableEq, Repr

def AgentMessageType.value : AgentMessageType → String
  | .command => "command"
  | .event => "event"
  | .artifact => "artifact"
  | .result => "result"
  | .error => "error"
  | .toolRequest => "tool_request"
  | .toolResult => "tool_result"

/-- Identifiers are their texts. -/
structure AgentMessage (C : Type) where
  protocolVersion : String := "1.0"
  taskId : String
  sender : AgentEndpoint
  receiver : AgentEndpoint
  messageType : AgentMessageType
  artifactType : String
  content : C
  contentHash : String
  idempotencyKey : String
  correlationId : String
  causationId : Option String := none
  replyTo : Option String := none
  inbox : Option String := none
  attempt : Nat := 1
  expiresAt : Option Int := none
  deriving DecidableEq

structure AgentRoute where
  sender : AgentEndpoint
  receiver : AgentEndpoint
  messageType : AgentMessageType
  artifactTypes : List String
  deriving DecidableEq

/-- `ROUTES` -/
def routes : List AgentRoute :=
  [⟨.user, .supervisor, .command, ["planning_request"]⟩,
    ⟨.supervisor, .intent, .command, ["planning_request"]⟩,
    ⟨.intent, .supervisor, .artifact, ["intent_artifact"]⟩,
    ⟨.intent, .supervisor, .result, ["intent_artifact"]⟩,
    ⟨.supervisor, .search, .command, ["intent_artifact", "retry_directive"]⟩,
    ⟨.search, .planner, .artifact, ["search_artifact"]⟩,
    ⟨.search, .safety, .artifact, ["search_artifact"]⟩,
    ⟨.safety, .planner, .artifact, ["safety_report"]⟩,
    ⟨.planner, .critic, .artifact, ["plan_candidate"]⟩,
    ⟨.planner, .supervisor, .result, ["plan_candidate", "planner_execution"]⟩,
    ⟨.supervisor, .planner, .command, ["planner_context"]⟩,
    ⟨.critic, .supervisor, .result, ["review_report", "critic_execution"]⟩,
    ⟨.supervisor, .critic, .command, ["critic_context"]⟩,
    ⟨.system, .supervisor, .error, ["recovery_event"]⟩,
    ⟨.supervisor, .finalAnswer, .result, ["final_answer"]⟩,
    ⟨.system, .companion, .event, ["trip_observation"]⟩,
    ⟨.system, .companion, .error, ["recovery_event"]⟩,
    ⟨.companion, .toolRuntime, .toolRequest, ["tool_request"]⟩,
    ⟨.toolRuntime, .companion, .toolResult, ["tool_result"]⟩,
    ⟨.companion, .finalAnswer, .result, ["companion_action_report"]⟩,
    ⟨.companion, .supervisor, .artifact, ["trip_event_artifact"]⟩,
    ⟨.supervisor, .replanner, .command, ["trip_event_artifact"]⟩,
    ⟨.replanner, .planner, .artifact, ["replan_directive"]⟩,
    ⟨.replanner, .planner, .result, ["replan_directive"]⟩,
    ⟨.planner, .critic, .artifact, ["plan_patch_candidate"]⟩,
    ⟨.critic, .supervisor, .result, ["dynamic_patch_review"]⟩,
    ⟨.supervisor, .finalAnswer, .result, ["plan_patch_proposal"]⟩]

/-- What the router uses of `json`, `hashlib` and the artifact schemas. -/
structure AgentMessageRouter (C : Type) where
  /-- `_validate_payload`, by task and artifact type; `none` passes, an error is its type's name. -/
  payloadError : String → String → C → Option String
  /-- The length of the canonical JSON. -/
  bytes : C → Nat
  sha256 : C → String
  /-- `_sha256` of an object with these members. -/
  sha256Object : List (String × Option String) → String

def maxAgentMessageBytes : Nat := 256 * 1024

variable {C : Type}

/-- `_authorize` -/
def AgentMessage.authorized (message : AgentMessage C) : Bool :=
  routes.any fun route => route.sender = message.sender && route.receiver = message.receiver &&
    route.messageType = message.messageType && message.artifactType ∈ route.artifactTypes

/-- The members that the idempotency key hashes. -/
def AgentMessage.identity (message : AgentMessage C) : List (String × Option String) :=
  [("protocol_version", some message.protocolVersion), ("task_id", some message.taskId),
    ("sender", some message.sender.value), ("receiver", some message.receiver.value),
    ("message_type", some message.messageType.value), ("artifact_type", some message.artifactType),
    ("content_hash", some message.contentHash), ("correlation_id", some message.correlationId),
    ("causation_id", message.causationId), ("reply_to", message.replyTo), ("inbox", message.inbox)]

def AgentMessage.expired (message : AgentMessage C) (utc : Int) : Bool :=
  message.expiresAt.any fun expires => expires ≤ utc

/-- The message of an `AgentProtocolError`. -/
abbrev AgentProtocolError := String

namespace AgentMessageRouter
variable (router : AgentMessageRouter C)

/-- `validate` up to its last check. -/
def validateEnvelope (message : AgentMessage C) : Except AgentProtocolError Unit :=
  if ¬ message.authorized then
    .error ("forbidden agent route: " ++ message.sender.value ++ "->" ++ message.receiver.value ++
      "/" ++ message.messageType.value ++ "/" ++ message.artifactType)
  else match router.payloadError message.taskId message.artifactType message.content with
    | some error => .error ("invalid " ++ message.artifactType ++ " payload: " ++ error)
    | none =>
        if maxAgentMessageBytes < router.bytes message.content then
          .error "agent message exceeds 256 KiB"
        else if router.sha256 message.content ≠ message.contentHash then
          .error "agent message content hash mismatch"
        else if router.sha256Object message.identity ≠ message.idempotencyKey then
          .error "agent message idempotency key mismatch"
        else .ok ()

def validate (message : AgentMessage C) (utc : Int) : Except AgentProtocolError Unit := do
  router.validateEnvelope message
  if message.expired utc then .error "agent message has expired" else .ok ()

/-- An envelope that passes every check but that of its time. -/
def wellFormed (message : AgentMessage C) : Prop := router.validateEnvelope message = .ok ()

variable {router} {message : AgentMessage C} {utc : Int}

theorem validate_ok_iff :
    router.validate message utc = .ok () ↔ router.wellFormed message ∧ message.expired utc = false := by
  unfold validate wellFormed
  cases router.validateEnvelope message with
  | error error => simp [bind, Except.bind]
  | ok passed =>
      cases expired : message.expired utc <;> simp [bind, Except.bind]

theorem hashes_of_wellFormed (formed : router.wellFormed message) :
    router.sha256 message.content = message.contentHash ∧
      router.sha256Object message.identity = message.idempotencyKey := by
  unfold wellFormed validateEnvelope at formed
  split at formed
  · cases formed
  · split at formed
    · cases formed
    · split_ifs at formed with _ hash key
      exact ⟨not_not.mp hash, not_not.mp key⟩

/-- A retried message passes the checks that it has passed. -/
theorem wellFormed_attempt (formed : router.wellFormed message) (attempt : Nat) :
    router.wellFormed { message with attempt := attempt } := formed

end AgentMessageRouter
end MapGo.Messages
