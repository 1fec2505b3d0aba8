import MapGo.Canonical
import MapGo.Maps.DistanceMatrix
import MapGo.Messages.Router

/-! Messages that the router builds: what their hash and idempotency key cover, and how they are
written to an entry of a stream and read from it. -/
namespace MapGo.Messages

open MapGo.Planning (Raised intOf)
open MapGo.Maps (FloatValue floatOf)

/-! The payloads of the artifact types. -/

/-- The schemas that payloads are validated by. -/
inductive PayloadModel where
  | aiPlanRequest | planningIntent | poiCandidate | aiPlanResult | planningContext | reviewReport
  | criticContext | criticSoftAdjustments | tripEventArtifact | replanDirective | planPatchArtifact
  | dynamicPatchReview | agentToolCallAudit
  deriving DecidableEq, Repr

/-- What `pydantic` answers. -/
structure PayloadModels where
  /-- `model_validate` does not raise. -/
  accepts : PayloadModel → Loaded → Bool
  /-- The producer and the type of an `ArtifactEnvelope` that is accepted. -/
  artifactEnvelope : Loaded → Option (String × String)

def exceptionName : Raised → String
  | .httpError => "HTTPError"
  | .keyError => "KeyError"
  | .valueError => "ValueError"
  | .indexError => "IndexError"
  | .typeError => "TypeError"
  | .attributeError => "AttributeError"
  | .overflowError => "OverflowError"
  | .recursionError => "RecursionError"
  | .agentProtocolError => "AgentProtocolError"

namespace Payload

/-- A check with the name of its exception, also of one that no handler catches. -/
abbrev Checked := Except String Unit

def refuse {α : Type} (name : String) : Except String α := .error name

def ensure (holds : Bool) (name : String := "ValueError") : Checked :=
  if holds then .ok () else .error name

/-- `int(value) < 0` does not hold. -/
def natural (value : Loaded) : Checked :=
  match intOf value with
  | .error raised => refuse (exceptionName raised)
  | .ok n => ensure (0 ≤ n)

def metadataKeys : List String := ["shared_state_ref", "state_revision", "state_hash"]

/-- `set(entries) == set(keys)` -/
def hasKeys (entries : List (String × Loaded)) (keys : List String) : Bool :=
  entries.all (fun entry => keys.contains entry.1) &&
    keys.all fun key => (entries.lookup key).isSome

def isDict : Loaded → Bool
  | .dict _ => true
  | _ => false

/-- `str(value)`, if it can be the text of a hash. -/
def hashText : Loaded → String
  | .str text => text
  | .int n => toString n
  | _ => ""

def isLowerHex (c : Char) : Bool := c.isDigit || ['a', 'b', 'c', 'd', 'e', 'f'].contains c

def isSha256 (text : String) : Bool := text.length = 64 && text.toList.all isLowerHex

/-- `for item in value` -/
def itemsOf : Loaded → Except String (List Loaded)
  | .list items => .ok items
  | .dict entries => .ok (entries.map fun entry => .str entry.1)
  | .str text => .ok (text.toList.map fun c => .str (String.ofList [c]))
  | .null | .bool _ | .int _ | .float _ | .infinity _ | .nan => .error "TypeError"

variable (models : PayloadModels)

def validModel (model : PayloadModel) (value : Loaded) : Checked :=
  ensure (models.accepts model value) "ValidationError"

/-- `payload.get(key)` -/
def member (payload : List (String × Loaded)) (key : String) : Loaded :=
  (payload.lookup key).getD .null

/-- `_validate_execution_payload` -/
def validateExecutionPayload (payload : List (String × Loaded)) (expectedAgent : String)
    (expectedArtifactType : String) : Checked := do
  let (producer, artifactType) ←
    (models.artifactEnvelope (member payload "artifact")).elim (refuse "ValidationError") .ok
  ensure (producer = expectedAgent)
  ensure (artifactType = expectedArtifactType)
  match member payload "tool_audit_complete" with
  | .bool true => .ok ()
  | _ => refuse "ValueError"
  let calls ← itemsOf ((payload.lookup "tool_calls").getD (.list []))
  calls.forM (validModel models .agentToolCallAudit)
  match member payload "metrics" with
  | .dict metrics =>
      ensure (hasKeys metrics ["latency_ms", "input_tokens", "output_tokens", "estimated_cost_usd",
        "fallback_used", "reason"])
      natural (member metrics "latency_ms")
      natural (member metrics "input_tokens")
      natural (member metrics "output_tokens")
      match floatOf (member metrics "estimated_cost_usd") with
      | .error raised => refuse (exceptionName raised)
      | .ok (.finite cost) => ensure (0 ≤ cost)
      | .ok (.infinity negative) => ensure !negative
      | .ok .nan => .ok ()
  | _ => refuse "ValueError"

/-- The metadata that refers to a shared state; the answer says whether there is any. -/
def validateMetadata (taskId : String) (content : List (String × Loaded)) : Except String Bool :=
  if metadataKeys.any fun key => (content.lookup key).isSome then do
    ensure (metadataKeys.all fun key => (content.lookup key).isSome)
    match member content "shared_state_ref" with
    | .str reference => ensure (reference = taskId)
    | _ => refuse "ValueError"
    natural (member content "state_revision")
    ensure (isSha256 (hashText (member content "state_hash")))
    .ok true
  else .ok false

/-- The payload of a message that refers to a shared state, if its type has a shape of its own. -/
def validateStateBacked (artifactType : String) (payload : List (String × Loaded)) :
    Option Checked :=
  match artifactType with
  | "intent_artifact" => some do
      ensure (hasKeys payload ["artifact_hash", "question_count"])
      natural (member payload "question_count")
  | "search_artifact" => some do
      ensure (hasKeys payload ["artifact_hash", "summary"])
      ensure (isDict (member payload "summary"))
  | "safety_report" => some do
      ensure (hasKeys payload ["artifact_hash", "search_artifact_hash", "summary"])
      ensure (isDict (member payload "summary"))
  | "plan_candidate" => some do
      ensure (hasKeys payload ["workflow_state", "status", "algorithm", "candidate_count",
        "stop_count", "conflict_count", "warning_count", "tool_error_codes", "plan_hash"])
  | "review_report" => some do
      ensure (hasKeys payload ["verdict", "confidence", "finding_count"])
      match member payload "verdict" with
      | .str verdict => ensure (["approved", "approved_with_warnings", "needs_clarification",
          "retry_with_soft_adjustments"].contains verdict)
      | .list _ | .dict _ => refuse "TypeError"
      | _ => refuse "ValueError"
  | "retry_directive" => some do
      ensure (hasKeys payload ["soft_adjustments"])
      validModel models .criticSoftAdjustments (member payload "soft_adjustments")
  | _ => none

def validateArtifact (artifactType : String) (payload : List (String × Loaded)) : Checked :=
  match artifactType with
  | "planning_request" => validModel models .aiPlanRequest (.dict payload)
  | "intent_artifact" => validModel models .planningIntent (member payload "intent")
  | "search_artifact" => do
      let groups ← itemsOf ((payload.lookup "candidates").getD (.list []))
      groups.forM fun group => do
        let candidates ← itemsOf group
        candidates.forM (validModel models .poiCandidate)
  | "plan_candidate" => validModel models .aiPlanResult (.dict payload)
  | "planner_context" => validModel models .planningContext (member payload "context")
  | "planner_execution" => do
      validModel models .aiPlanResult (member payload "output")
      validateExecutionPayload models payload "planner" "plan_candidate"
  | "review_report" => validModel models .reviewReport (.dict payload)
  | "critic_context" => validModel models .criticContext (member payload "context")
  | "critic_execution" => do
      validModel models .reviewReport (member payload "output")
      validateExecutionPayload models payload "critic" "review_report"
  | "retry_directive" => do
      ensure (hasKeys payload ["intent", "soft_adjustments"])
      validModel models .planningIntent (member payload "intent")
      validModel models .criticSoftAdjustments (member payload "soft_adjustments")
  | "trip_event_artifact" => validModel models .tripEventArtifact (.dict payload)
  | "replan_directive" => validModel models .replanDirective
      ((payload.lookup "directive").getD (.dict payload))
  | "plan_patch_candidate" => validModel models .planPatchArtifact (.dict payload)
  | "dynamic_patch_review" => validModel models .dynamicPatchReview (.dict payload)
  | "plan_patch_proposal" => validModel models .planPatchArtifact (.dict payload)
  | _ => .ok ()

/-- `_validate_payload` -/
def validatePayload (taskId artifactType : String) (content : List (String × Loaded)) : Checked := do
  let hasMetadata ← validateMetadata taskId content
  let payload := content.filter fun entry => !metadataKeys.contains entry.1
  if hasMetadata then
    (validateStateBacked models artifactType payload).getD
      (validateArtifact models artifactType payload)
  else validateArtifact models artifactType payload

def payloadError (taskId artifactType : String) : Loaded → Option String
  | .dict content => match validatePayload models taskId artifactType content with
    | .ok () => none
    | .error name => some name
  | _ => some "TypeError"

end Payload

/-! The whole envelope and its schema. -/

structure TraceContext where
  traceparent : Option String := none
  tracestate : Option String := none
  baggage : Option String := none
  deriving DecidableEq

/-- The fields of `AgentMessage` that the router does not look at are added here. -/
structure Envelope extends AgentMessage Loaded where
  messageId : String
  traceContext : TraceContext := {}
  createdAt : Int

def isHex (length : Nat) (text : List Char) : Bool :=
  text.length = length && text.all Payload.isLowerHex

/-- Groups of lower-case hexadecimal digits with hyphens between them. -/
def hexGroups (lengths : List Nat) (text : String) : Bool :=
  let groups := text.toList.splitOn '-'
  groups.length = lengths.length && (lengths.zip groups).all fun group => isHex group.1 group.2

/-- `str(uuid)` -/
def isUuid : String → Bool := hexGroups [8, 4, 4, 4, 12]

def isInboxName (text : String) : Bool :=
  (16 ≤ text.length && text.length ≤ 80) &&
    text.toList.all fun c => c.isAlphanum || ['.', '_', '-'].contains c

def TraceContext.accepted (trace : TraceContext) : Bool :=
  trace.traceparent.all (hexGroups [2, 32, 16, 2]) &&
    trace.tracestate.all (fun text => text.length ≤ 512) &&
    trace.baggage.all fun text => text.length ≤ 2048

namespace Envelope
variable (m : Envelope)

/-- The constraints of the fields. -/
def fieldsAccepted : Bool :=
  m.protocolVersion = "1.0" && isUuid m.messageId &&
    (8 ≤ m.taskId.length && m.taskId.length ≤ 128) &&
    (1 ≤ m.artifactType.length && m.artifactType.length ≤ 80) &&
    Payload.isDict m.content && Payload.isSha256 m.contentHash &&
    (16 ≤ m.idempotencyKey.length && m.idempotencyKey.length ≤ 128) &&
    isUuid m.correlationId && m.causationId.all isUuid && m.replyTo.all isInboxName &&
    m.inbox.all isInboxName && (1 ≤ m.attempt && m.attempt ≤ 5) && m.traceContext.accepted

/-- `validate_envelope` -/
def validEnvelope : Bool :=
  m.sender ≠ m.receiver && !(m.replyTo.isSome && m.inbox.isSome) &&
    !(m.inbox.isSome && m.causationId.isNone) && m.expiresAt.all fun expires => m.createdAt < expires

def accepted : Bool := m.fieldsAccepted && m.validEnvelope

end Envelope

/-! `build` -/

/-- The arguments of `build`, the given correlation or a new one among them. -/
structure BuildArgs where
  taskId : String
  sender : AgentEndpoint
  receiver : AgentEndpoint
  messageType : AgentMessageType
  artifactType : String
  content : List (String × Loaded)
  correlationId : Option String := none
  causationId : Option String := none
  replyTo : Option String := none
  inbox : Option String := none
  attempt : Nat := 1

/-- What a build takes from its surroundings. -/
structure BuildContext where
  messageId : String
  newCorrelationId : String
  now : Int
  carrier : TraceContext := {}

inductive BuildError where
  | protocol (message : AgentProtocolError)
  | validation
  deriving DecidableEq

/-- The router over JSON. SHA-256 is applied to the UTF-8 bytes of a text. -/
def jsonRouter (models : PayloadModels) (floats : FloatText) (sha256 : List Char → String) :
    AgentMessageRouter Loaded where
  payloadError := Payload.payloadError models
  bytes content := ((content.canonicalJson floats).map Char.utf8Size).sum
  sha256 content := sha256 (content.canonicalJson floats)
  sha256Object members := sha256 ((Loaded.texts members).canonicalJson floats)

/-- The message before its hashes. -/
def BuildArgs.unsigned (args : BuildArgs) (context : BuildContext) : Envelope where
  messageId := context.messageId
  taskId := args.taskId
  sender := args.sender
  receiver := args.receiver
  messageType := args.messageType
  artifactType := args.artifactType
  content := .dict args.content
  contentHash := ""
  idempotencyKey := ""
  correlationId := args.correlationId.getD context.newCorrelationId
  causationId := args.causationId
  replyTo := args.replyTo
  inbox := args.inbox
  attempt := args.attempt
  traceContext := context.carrier
  createdAt := context.now

namespace AgentMessageRouter
variable (router : AgentMessageRouter Loaded)

/-- The message with the hashes of what it holds. -/
def signed (m : Envelope) : Envelope :=
  let hashed := { m with contentHash := router.sha256 m.content }
  { hashed with idempotencyKey := router.sha256Object hashed.toAgentMessage.identity }

def build (args : BuildArgs) (context : BuildContext) : Except BuildError Envelope :=
  if maxAgentMessageBytes < router.bytes (.dict args.content) then
    .error (.protocol "agent message exceeds 256 KiB")
  else
    let m := router.signed (args.unsigned context)
    if m.accepted then .ok m else .error .validation

end AgentMessageRouter

/-! Entries of a stream. -/

/-- What `pydantic` and its JSON parser do with texts. -/
structure WireFormat where
  write : Loaded → String
  read : String → Option Loaded
  instantText : Int → String
  instant : Loaded → Option Int
  uuid : Loaded → Option String
  whole : Loaded → Option Int

def optionalText (text : Option String) : Loaded := text.elim .null .str

namespace TraceContext

def modelDump (trace : TraceContext) : Loaded :=
  .dict [("traceparent", optionalText trace.traceparent),
    ("tracestate", optionalText trace.tracestate), ("baggage", optionalText trace.baggage)]

end TraceContext

section wire
variable (wire : WireFormat)

/-- The fields with their JSON values. -/
def Envelope.members (m : Envelope) : List (String × Loaded) :=
  [("protocol_version", .str m.protocolVersion), ("message_id", .str m.messageId),
    ("task_id", .str m.taskId), ("sender", .str m.sender.value),
    ("receiver", .str m.receiver.value), ("message_type", .str m.messageType.value),
    ("artifact_type", .str m.artifactType), ("content", m.content),
    ("content_hash", .str m.contentHash), ("idempotency_key", .str m.idempotencyKey),
    ("correlation_id", .str m.correlationId), ("causation_id", optionalText m.causationId),
    ("reply_to", optionalText m.replyTo), ("inbox", optionalText m.inbox),
    ("attempt", .int m.attempt), ("trace_context", m.traceContext.modelDump),
    ("created_at", .str (wire.instantText m.createdAt)),
    ("expires_at", m.expiresAt.elim .null fun expires => .str (wire.instantText expires))]

/-- `model_dump(mode="json")` -/
def Envelope.modelDump (m : Envelope) : Loaded := .dict (m.members wire)

/-- The text of the entry's field. -/
def Envelope.modelDumpJson (m : Envelope) : String := wire.write (m.modelDump wire)

def textOf : Loaded → Option String
  | .str text => some text
  | _ => none

def dictOf : Loaded → Option (List (String × Loaded))
  | .dict entries => some entries
  | _ => none

/-- A field that may be null. -/
def nullable {α : Type} (reader : Loaded → Option α) : Loaded → Option (Option α)
  | .null => some none
  | value => (reader value).map some

/-- A field with a default. -/
def defaulted {α : Type} (value : Option Loaded) (default : α) (reader : Loaded → Option α) :
    Option α := value.elim (some default) reader

def AgentEndpoint.all : List AgentEndpoint :=
  [.user, .system, .supervisor, .intent, .search, .safety, .planner, .critic, .companion,
    .replanner, .toolRuntime, .finalAnswer]

def AgentMessageType.all : List AgentMessageType :=
  [.command, .event, .artifact, .result, .error, .toolRequest, .toolResult]

def endpointOf (value : Loaded) : Option AgentEndpoint := do
  let text ← textOf value
  AgentEndpoint.all.find? fun endpoint => endpoint.value = text

def messageTypeOf (value : Loaded) : Option AgentMessageType := do
  let text ← textOf value
  AgentMessageType.all.find? fun messageType => messageType.value = text

def traceContextOf (value : Loaded) : Option TraceContext := do
  let entries ← dictOf value
  if entries.all fun entry => ["traceparent", "tracestate", "baggage"].contains entry.1 then
    some
      { traceparent := ← defaulted (entries.lookup "traceparent") none (nullable textOf)
        tracestate := ← defaulted (entries.lookup "tracestate") none (nullable textOf)
        baggage := ← defaulted (entries.lookup "baggage") none (nullable textOf) }
  else none

def fieldNames : List String :=
  ["protocol_version", "message_id", "task_id", "sender", "receiver", "message_type",
    "artifact_type", "content", "content_hash", "idempotency_key", "correlation_id",
    "causation_id", "reply_to", "inbox", "attempt", "trace_context", "created_at", "expires_at"]

/-- `AgentMessage.model_validate`; `now` is the default of the creation time. -/
def Envelope.modelValidate (now : Int) (value : Loaded) : Option Envelope := do
  let entries ← dictOf value
  if entries.all fun entry => fieldNames.contains entry.1 then
    let attempt ← defaulted (entries.lookup "attempt") 1 wire.whole
    let m : Envelope :=
      { protocolVersion := ← defaulted (entries.lookup "protocol_version") "1.0" textOf
        messageId := ← (entries.lookup "message_id").bind wire.uuid
        taskId := ← (entries.lookup "task_id").bind textOf
        sender := ← (entries.lookup "sender").bind endpointOf
        receiver := ← (entries.lookup "receiver").bind endpointOf
        messageType := ← (entries.lookup "message_type").bind messageTypeOf
        artifactType := ← (entries.lookup "artifact_type").bind textOf
        content := .dict (← (entries.lookup "content").bind dictOf)
        contentHash := ← (entries.lookup "content_hash").bind textOf
        idempotencyKey := ← (entries.lookup "idempotency_key").bind textOf
        correlationId := ← (entries.lookup "correlation_id").bind wire.uuid
        causationId := ← defaulted (entries.lookup "causation_id") none (nullable wire.uuid)
        replyTo := ← defaulted (entries.lookup "reply_to") none (nullable textOf)
        inbox := ← defaulted (entries.lookup "inbox") none (nullable textOf)
        attempt := attempt.toNat
        traceContext := ← defaulted (entries.lookup "trace_context") {} traceContextOf
        createdAt := ← defaulted (entries.lookup "created_at") now wire.instant
        expiresAt := ← defaulted (entries.lookup "expires_at") none (nullable wire.instant) }
    if m.accepted then some m else none
  else none

/-- A name or value of an entry, as the client decodes it or not. -/
inductive Raw where
  | text (value : String)
  | bytes (value : ByteArray)
  deriving DecidableEq

def Raw.truthy : Raw → Bool
  | .text value => value ≠ ""
  | .bytes value => value.size ≠ 0

def Raw.decode : Raw → Option String
  | .text value => some value
  | .bytes value => String.fromUTF8? value

/-- `_decode_stream_message` -/
def decodeStreamMessage (now : Int) (fields : List (Raw × Raw)) : Option Envelope := do
  let raw ← ((fields.lookup (.text "message")).filter Raw.truthy).or
    (fields.lookup (.bytes "message".toUTF8))
  (wire.read (← raw.decode)).bind (Envelope.modelValidate wire now)

/-- The forms of the entry that a message is published in. -/
def Envelope.entries (m : Envelope) : List (List (Raw × Raw)) :=
  [[(.text "message", .text (m.modelDumpJson wire))],
    [(.bytes "message".toUTF8, .bytes (m.modelDumpJson wire).toUTF8)]]

/-- The parsers read what was written for a message. -/
structure WireFormat.Reads (m : Envelope) : Prop where
  nonempty : m.modelDumpJson wire ≠ ""
  json : wire.read (m.modelDumpJson wire) = some (m.modelDump wire)
  created : wire.instant (.str (wire.instantText m.createdAt)) = some m.createdAt
  expires : ∀ expires ∈ m.expiresAt, wire.instant (.str (wire.instantText expires)) = some expires
  uuid : ∀ text, isUuid text = true → wire.uuid (.str text) = some text
  attempt : wire.whole (.int m.attempt) = some m.attempt

end wire

variable {wire : WireFormat} {m other : Envelope} {router : AgentMessageRouter Loaded}
  {args : BuildArgs} {context : BuildContext} {now utc : Int}

theorem endpointOf_value (endpoint : AgentEndpoint) :
    endpointOf (.str endpoint.value) = some endpoint := by
  cases endpoint <;> decide

theorem messageTypeOf_value (messageType : AgentMessageType) :
    messageTypeOf (.str messageType.value) = some messageType := by
  cases messageType <;> decide

theorem nullable_optionalText {reader : Loaded → Option String} {text : Option String}
    (reads : ∀ value ∈ text, reader (.str value) = some value) :
    nullable reader (optionalText text) = some text := by
  cases text with
  | none => rfl
  | some value =>
      simp only [optionalText, nullable, Option.elim_some, reads value rfl, Option.map_some]

theorem traceContextOf_modelDump (trace : TraceContext) :
    traceContextOf trace.modelDump = some trace := by
  have reads : ∀ text : Option String, nullable textOf (optionalText text) = some text :=
    fun text => nullable_optionalText fun _ _ => rfl
  simp [traceContextOf, TraceContext.modelDump, dictOf, defaulted, reads, List.lookup]

theorem Envelope.uuids_of_accepted (accepted : m.accepted = true) :
    isUuid m.messageId = true ∧ isUuid m.correlationId = true ∧
      ∀ cause ∈ m.causationId, isUuid cause = true := by
  simp only [Envelope.accepted, Envelope.fieldsAccepted, Bool.and_eq_true] at accepted
  refine ⟨by tauto, by tauto, fun cause caused => ?_⟩
  have causation : m.causationId.all isUuid = true := by tauto
  rwa [caused, Option.all_some] at causation

theorem Envelope.content_of_accepted (accepted : m.accepted = true) :
    ∃ entries, m.content = .dict entries := by
  simp only [Envelope.accepted, Envelope.fieldsAccepted, Bool.and_eq_true] at accepted
  have dict : Payload.isDict m.content = true := by tauto
  cases content : m.content with
  | dict entries => exact ⟨entries, rfl⟩
  | null | bool _ | int _ | float _ | infinity _ | nan | str _ | list _ =>
      rw [content] at dict
      cases dict

/-- Only the times of a message are written in different ways. -/
theorem modelDump_congr {format : WireFormat} (same : wire.instantText = format.instantText) :
    m.modelDump wire = m.modelDump format := by
  simp only [Envelope.modelDump, Envelope.members, same]

theorem bind_of_eq {α β : Type} {x : Option α} {a : α} {f : α → Option β} {result : Option β}
    (found : x = some a) (rest : f a = result) : x.bind f = result := by
  rw [found, Option.bind_some, rest]

/-- An accepted message is read from what it is dumped to. -/
theorem modelValidate_modelDump (accepted : m.accepted = true) (reads : wire.Reads m) :
    Envelope.modelValidate wire now (m.modelDump wire) = some m := by
  obtain ⟨message, correlation, causation⟩ := Envelope.uuids_of_accepted accepted
  obtain ⟨entries, content⟩ := Envelope.content_of_accepted accepted
  have cause := nullable_optionalText fun value given => reads.uuid value (causation value given)
  have text : ∀ text : Option String, nullable textOf (optionalText text) = some text :=
    fun text => nullable_optionalText fun _ _ => rfl
  have expires : nullable wire.instant
      (m.expiresAt.elim .null fun expires => .str (wire.instantText expires)) =
      some m.expiresAt := by
    cases given : m.expiresAt with
    | none => rfl
    | some value =>
        simp only [nullable, Option.elim_some, reads.expires value given, Option.map_some]
  have known : ((m.members wire).all fun entry => fieldNames.contains entry.1) = true := rfl
  have dict : dictOf m.content = some entries := by rw [content]; rfl
  unfold Envelope.modelValidate Envelope.modelDump
  refine bind_of_eq rfl ?_
  rw [if_pos known]
  -- the fields in the order in which they are read
  refine bind_of_eq reads.attempt (bind_of_eq rfl (bind_of_eq (reads.uuid _ message)
    (bind_of_eq rfl (bind_of_eq (endpointOf_value _) (bind_of_eq (endpointOf_value _) ?_)))))
  refine bind_of_eq (messageTypeOf_value _) (bind_of_eq rfl (bind_of_eq dict
    (bind_of_eq rfl (bind_of_eq rfl (bind_of_eq (reads.uuid _ correlation) ?_)))))
  refine bind_of_eq cause (bind_of_eq (text _) (bind_of_eq (text _)
    (bind_of_eq (traceContextOf_modelDump _) (bind_of_eq reads.created
      (bind_of_eq expires ?_)))))
  have same : { m with content := .dict entries, attempt := (m.attempt : Int).toNat } = m := by
    rw [Int.toNat_natCast, ← content]
  rw [← same] at accepted
  exact (if_pos accepted).trans (congrArg some same)

theorem fromUTF8_toUTF8 (text : String) : String.fromUTF8? text.toUTF8 = some text := by
  simp only [String.fromUTF8?, String.toUTF8_eq_toByteArray, text.isValidUTF8, dite_true]
  rfl

/-- An entry is read as the message that it was written for. -/
theorem decodeStreamMessage_entries (accepted : m.accepted = true) (reads : wire.Reads m) :
    ∀ entry ∈ m.entries wire, decodeStreamMessage wire now entry = some m := by
  have parsed : (wire.read (m.modelDumpJson wire)).bind (Envelope.modelValidate wire now) =
      some m := bind_of_eq reads.json (modelValidate_modelDump accepted reads)
  intro entry member
  unfold decodeStreamMessage
  obtain rfl | rfl := List.mem_pair.mp member
  · refine bind_of_eq (a := Raw.text (m.modelDumpJson wire)) ?_ (bind_of_eq rfl parsed)
    simp [Raw.truthy, reads.nonempty]
  · refine bind_of_eq (a := Raw.bytes (m.modelDumpJson wire).toUTF8) ?_
      (bind_of_eq (fromUTF8_toUTF8 _) parsed)
    have apart : (Raw.text "message" == Raw.bytes "message".toUTF8) = false :=
      beq_eq_false_iff_ne.mpr (by intro same; cases same)
    simp only [List.lookup, apart, beq_self_eq_true, Option.filter_none, Option.none_or]

/-! A built message. -/

theorem build_ok (built : router.build args context = .ok m) :
    router.bytes m.content ≤ maxAgentMessageBytes ∧ m.accepted = true ∧
      router.sha256 m.content = m.contentHash ∧
      router.sha256Object m.identity = m.idempotencyKey ∧ m.expiresAt = none := by
  unfold AgentMessageRouter.build at built
  split at built
  · cases built
  case isFalse small =>
    dsimp only at built
    split at built
    case isTrue accepted =>
      cases built
      exact ⟨not_lt.mp small, accepted, rfl, rfl, rfl⟩
    case isFalse => cases built

/-- A built message passes unless its route or its payload is refused. -/
theorem validate_built (built : router.build args context = .ok m) :
    router.validate m.toAgentMessage utc = .ok () ↔
      m.authorized = true ∧ router.payloadError m.taskId m.artifactType m.content = none := by
  obtain ⟨small, -, hash, key, expires⟩ := build_ok built
  have unexpired : m.expired utc = false := by rw [AgentMessage.expired, expires]; rfl
  rw [AgentMessageRouter.validate_ok_iff, and_iff_left unexpired, AgentMessageRouter.wellFormed,
    AgentMessageRouter.validateEnvelope]
  cases authorized : m.authorized with
  | false => simp
  | true =>
      cases payload : router.payloadError m.taskId m.artifactType m.content with
      | some error => simp
      | none => simp [not_lt.mpr small, hash, key]

theorem AgentEndpoint.value_injective : Function.Injective AgentEndpoint.value := by
  intro endpoint other same
  have found := endpointOf_value endpoint
  rw [same, endpointOf_value] at found
  exact (Option.some.inj found).symm

theorem AgentMessageType.value_injective : Function.Injective AgentMessageType.value := by
  intro messageType other same
  have found := messageTypeOf_value messageType
  rw [same, messageTypeOf_value] at found
  exact (Option.some.inj found).symm

/-- What the hash and the key of a message are to protect. -/
structure Envelope.SameCore (m other : Envelope) : Prop where
  protocolVersion : m.protocolVersion = other.protocolVersion
  taskId : m.taskId = other.taskId
  sender : m.sender = other.sender
  receiver : m.receiver = other.receiver
  messageType : m.messageType = other.messageType
  artifactType : m.artifactType = other.artifactType
  content : m.content.sortKeys = other.content.sortKeys
  correlationId : m.correlationId = other.correlationId
  causationId : m.causationId = other.causationId
  replyTo : m.replyTo = other.replyTo
  inbox : m.inbox = other.inbox

variable {models : PayloadModels} {floats : FloatText} {sha256 : List Char → String}

/-- The two texts have different hashes unless they are the same. -/
def NoCollision (sha256 : List Char → String) (text other : List Char) : Prop :=
  sha256 text = sha256 other → text = other

theorem sameCore_of_hashes
    (contents : NoCollision sha256 (m.content.canonicalJson floats)
      (other.content.canonicalJson floats))
    (identities : NoCollision sha256 ((Loaded.texts m.identity).canonicalJson floats)
      ((Loaded.texts other.identity).canonicalJson floats))
    (hash : (jsonRouter models floats sha256).sha256 m.content =
      (jsonRouter models floats sha256).sha256 other.content)
    (key : (jsonRouter models floats sha256).sha256Object m.identity =
      (jsonRouter models floats sha256).sha256Object other.identity) : m.SameCore other := by
  have content := Loaded.canonicalJson_inj.mp (contents hash)
  have keys : ∀ m : AgentMessage Loaded, m.identity.map Prod.fst = ["protocol_version", "task_id",
      "sender", "receiver", "message_type", "artifact_type", "content_hash", "correlation_id",
      "causation_id", "reply_to", "inbox"] := fun _ => rfl
  have identity := Loaded.texts_inj ((keys _).trans (keys _).symm) (keys _ ▸ by decide)
    (identities key)
  simp only [AgentMessage.identity, List.cons.injEq, Prod.mk.injEq, true_and, and_true,
    Option.some.injEq] at identity
  obtain ⟨version, task, sender, receiver, type, artifact, -, correlation, causation, reply,
    inbox⟩ := identity
  exact ⟨version, task, AgentEndpoint.value_injective sender,
    AgentEndpoint.value_injective receiver, AgentMessageType.value_injective type, artifact,
    content, correlation, causation, reply, inbox⟩

/-- A built message passes the router if and only if its route is authorized and its payload passes
the schema of its type; an entry of a stream gives it back; and no other message with its hash and
key passes, unless it is the same in all that these protect. -/
theorem message_integrity
    (built : (jsonRouter models floats sha256).build args context = .ok m) :
    ((jsonRouter models floats sha256).validate m.toAgentMessage utc = .ok () ↔
      m.authorized = true ∧ Payload.payloadError models m.taskId m.artifactType m.content = none) ∧
    (∀ wire now, WireFormat.Reads wire m →
      ∀ entry ∈ m.entries wire, decodeStreamMessage wire now entry = some m) ∧
    ∀ other : Envelope, other.contentHash = m.contentHash →
      other.idempotencyKey = m.idempotencyKey →
      NoCollision sha256 (other.content.canonicalJson floats) (m.content.canonicalJson floats) →
      NoCollision sha256 ((Loaded.texts other.identity).canonicalJson floats)
        ((Loaded.texts m.identity).canonicalJson floats) →
      ∀ utc, (jsonRouter models floats sha256).validate other.toAgentMessage utc = .ok () →
        other.SameCore m := by
  obtain ⟨-, accepted, hash, key, -⟩ := build_ok built
  refine ⟨validate_built built, fun wire now reads => decodeStreamMessage_entries accepted reads,
    fun other same_hash same_key contents identities utc passed => ?_⟩
  have formed := (AgentMessageRouter.validate_ok_iff.mp passed).1
  obtain ⟨own_hash, own_key⟩ := AgentMessageRouter.hashes_of_wellFormed formed
  exact sameCore_of_hashes contents identities (own_hash.trans (same_hash.trans hash.symm))
    (own_key.trans (same_key.trans key.symm))

/-! An observation, with the hashes that SHA-256 gives its texts. -/

/-- A text for each rational number. The messages below hold no floats. -/
def codeText : FloatText where
  text q := (Nat.repr (Encodable.encode q)).toList ++ ['.', '0']
  injective p q same := by
    have codes := List.append_cancel_right same
    exact Encodable.encode_injective (Nat.repr_injective (String.toList_injective codes))
  numeric q c member := by
    obtain code | point := List.mem_append.mp member
    · exact .inl (Nat.isDigit_of_mem_toDigits (by decide) (by decide) (Nat.toList_repr ▸ code))
    · obtain rfl | rfl := List.mem_pair.mp point
      · exact .inr (by decide)
      · exact .inl rfl
  marked q := ⟨'.', by simp⟩

def weatherContent : List (String × Loaded) :=
  [("kind", .str "weather"), ("impact", .int 2), ("areas", .list [.str "north", .str "south"])]

/-- A reference to a shared state without its revision and hash. -/
def partialContent : List (String × Loaded) := [("shared_state_ref", .str "trip-1-state")]

def observationArgs (content : List (String × Loaded)) : BuildArgs where
  taskId := "trip-1-state"
  sender := .system
  receiver := .companion
  messageType := .event
  artifactType := "trip_observation"
  content := content

def observationContext : BuildContext where
  messageId := "7d9b1f3a-0c52-4e0b-9d2a-5b1e6f0c8a11"
  newCorrelationId := "3f2504e0-4f89-41d3-9a0c-0305e82c3301"
  now := 1767225600

/-- The text that the idempotency key of an observation is the hash of. -/
def identityText (content : List (String × Loaded)) (contentHash : String) : List Char :=
  let m := (observationArgs content).unsigned observationContext
  (Loaded.texts { m with contentHash := contentHash }.toAgentMessage.identity).canonicalJson codeText

def observationSha256 (text : List Char) : String :=
  let weatherHash := "fcec482f779d7bb5a3542168b7e5094933f0f13f88cd05d0b92ded7ba413a311"
  let partialHash := "06761c467f1043c9a6b5cb6e01272bce3685f83e26239f753f901957451e931f"
  if text = (Loaded.dict weatherContent).canonicalJson codeText then weatherHash
  else if text = identityText weatherContent weatherHash then
    "7c1c44653fdb23fb95d395c2cd69b7cbbcdbe60919db852d30195a2df84d4b51"
  else if text = (Loaded.dict partialContent).canonicalJson codeText then partialHash
  else if text = identityText partialContent partialHash then
    "446efc15976798bcbacb33f930ff3efc2beac0807e9a1682c5f6a49bcf295c04"
  else String.ofList (List.replicate 64 '0')

/-- No model is asked for an observation. -/
def observationRouter : AgentMessageRouter Loaded :=
  jsonRouter ⟨fun _ _ => false, fun _ => none⟩ codeText observationSha256

def observationMessage (content : List (String × Loaded)) : Envelope :=
  observationRouter.signed ((observationArgs content).unsigned observationContext)

/-- A format that reads the text of one value. -/
def wireOf (value : Loaded) : WireFormat where
  write value := String.ofList (value.written codeText)
  read text := if text = String.ofList (value.written codeText) then some value else none
  instantText instant := if instant = 1767225600 then "2026-01-01T00:00:00Z" else ""
  instant value := if textOf value = some "2026-01-01T00:00:00Z" then some 1767225600 else none
  uuid value := (textOf value).filter isUuid
  whole value := (intOf value).toOption

theorem build_observation (content : List (String × Loaded))
    (small : observationRouter.bytes (.dict content) ≤ maxAgentMessageBytes)
    (accepted : (observationMessage content).accepted = true) :
    observationRouter.build (observationArgs content) observationContext =
      .ok (observationMessage content) := by
  unfold AgentMessageRouter.build
  exact (if_neg (not_lt.mpr small)).trans (if_pos accepted)

theorem wireOf_read (value : Loaded) :
    (wireOf value).read ((wireOf value).write value) = some value := by
  simp only [wireOf, if_true]

theorem wireOf_reads {value : Loaded} (dumped : m.modelDump (wireOf value) = value)
    (created : m.createdAt = 1767225600) (lasts : m.expiresAt = none) :
    (wireOf value).Reads m where
  nonempty same := by
    have text := congrArg String.toList same
    rw [Envelope.modelDumpJson, dumped, ← dumped] at text
    simp [Envelope.modelDump, wireOf, Loaded.written] at text
  json := by
    rw [Envelope.modelDumpJson, dumped]
    exact wireOf_read value
  created := by simp [created, wireOf, textOf]
  expires instant given := by
    rw [lasts] at given
    cases given
  uuid text is_uuid := by simp [wireOf, textOf, is_uuid]
  attempt := rfl

theorem dumped_wireOf (m : Envelope) :
    m.modelDump (wireOf (m.modelDump (wireOf .null))) = m.modelDump (wireOf .null) :=
  modelDump_congr rfl

/-- A built message passes, comes back from an entry, and cannot be sent on to another trip. -/
theorem message_integrity_weather :
    observationRouter.build (observationArgs weatherContent) observationContext =
        .ok (observationMessage weatherContent) ∧
      observationRouter.validate (observationMessage weatherContent).toAgentMessage 0 = .ok () ∧
      (∃ wire, ∀ entry ∈ (observationMessage weatherContent).entries wire,
        decodeStreamMessage wire 0 entry = some (observationMessage weatherContent)) ∧
      observationRouter.validate
        { (observationMessage weatherContent).toAgentMessage with taskId := "trip-2-state" } 0 ≠
        .ok () := by
  have built := build_observation weatherContent (by decide +kernel) (by decide +kernel)
  have allowed : (observationMessage weatherContent).authorized = true ∧
      Payload.payloadError ⟨fun _ _ => false, fun _ => none⟩
        (observationMessage weatherContent).taskId (observationMessage weatherContent).artifactType
        (observationMessage weatherContent).content = none := by decide +kernel
  have apart : observationSha256 ((Loaded.texts { (observationMessage weatherContent).toAgentMessage
      with taskId := "trip-2-state" }.identity).canonicalJson codeText) ≠
      observationSha256 ((Loaded.texts (observationMessage weatherContent).identity).canonicalJson
        codeText) := by decide +kernel
  have task : (observationMessage weatherContent).taskId = "trip-1-state" := rfl
  have created : (observationMessage weatherContent).createdAt = 1767225600 := rfl
  have lasts : (observationMessage weatherContent).expiresAt = none := rfl
  generalize observationMessage weatherContent = m at *
  obtain ⟨passes, decodes, protects⟩ := message_integrity built
  refine ⟨built, passes.mpr allowed, ⟨_, decodes _ 0 (wireOf_reads (dumped_wireOf m) created lasts)⟩,
    fun passed => ?_⟩
  have same := protects { m with taskId := "trip-2-state" } rfl rfl (fun _ => rfl)
    (fun same => absurd same apart) 0 passed
  have moved : "trip-2-state" = "trip-1-state" := same.taskId.trans task
  exact absurd moved (by decide)

/-- On an authorized route a payload that breaks its schema is built and does not pass. -/
theorem payload_not_validated :
    observationRouter.build (observationArgs partialContent) observationContext =
        .ok (observationMessage partialContent) ∧
      (observationMessage partialContent).authorized = true ∧
      observationRouter.validate (observationMessage partialContent).toAgentMessage 0 =
        .error "invalid trip_observation payload: ValueError" :=
  ⟨build_observation partialContent (by decide +kernel) (by decide +kernel), by decide +kernel,
    by decide +kernel⟩

end MapGo.Messages
