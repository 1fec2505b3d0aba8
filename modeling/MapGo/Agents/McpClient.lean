import MapGo.Agents.Runtime
import MapGo.Transition

/-! The MCP client of the agents' tools. Any number of tool calls share one adapter: a call that
finds the server's tools unknown and gets the lock introduces the client and lists them, and a tool
is called once its listed schema is that of the registry. Adapters share nothing, so a run is
followed at one of them. -/
namespace MapGo

namespace Json

/-- The number that a Boolean or a number is equal to. -/
def asNumber : Json → Option ℚ
  | .bool value => some (if value then 1 else 0)
  | .number value => some value
  | _ => none

mutual

/-- Python's `==`: the order of an object's entries does not count. -/
def equals : Json → Json → Bool
  | .null, .null => true
  | .str a, .str b => a == b
  | .array a, .array b => equalItems a b
  | .object a, .object b => a.length == b.length && equalEntries a b
  | .bool a, b => b.asNumber == some (if a then 1 else 0)
  | .number a, b => b.asNumber == some a
  | _, _ => false

def equalItems : List Json → List Json → Bool
  | [], [] => true
  | a :: as, b :: bs => equals a b && equalItems as bs
  | _, _ => false

def equalEntries : List (String × Json) → Dict → Bool
  | [], _ => true
  | (key, a) :: as, b => (b.lookup key).any (equals a) && equalEntries as b

end

end Json

namespace Agents

open Transition
open MapGo.Shared (AgentType)

structure ToolInvocation where
  agentType : AgentType
  capability : String
  invocationMode : InvocationMode
  requestedScopes : List DataScope
  arguments : Dict
  deriving DecidableEq

structure ToolResultEnvelope where
  success : Bool
  errorCode : Option String := none
  retryable : Bool := false
  source : String := "mapgo"
  expiresAt : Option String := none
  confidence : ℚ := 1
  artifactRef : Option String := none
  data : Dict := []
  deriving DecidableEq

structure McpServerConfig where
  name : String
  allowedTools : List String
  deriving DecidableEq, Repr

/-- `AgentToolRuntime` over the adapters of the configured servers. -/
structure McpToolRuntime where
  servers : List McpServerConfig
  maxResponseBytes : Nat := 512000
  modelValidate : ArgumentModel → Dict → Option Dict
  modelJsonSchema : ArgumentModel → Json
  /-- `ToolResultEnvelope.model_validate` -/
  readEnvelope : Dict → Option ToolResultEnvelope

/-- What is posted to the server; the notification has no id. -/
inductive McpMessage where
  | initializeRequest (id : Nat)
  | initialized
  | listTools (id : Nat)
  | callTool (id : Nat) (name : String) (arguments : Dict)
  deriving DecidableEq

def McpMessage.id : McpMessage → Option Nat
  | .initializeRequest id | .listTools id | .callTool id _ _ => some id
  | .initialized => none

/-- What becomes of a post: it or `raise_for_status` raises, or the body is read, which
`response.json()` may refuse. -/
inductive Reply where
  | raised (error : ToolError)
  | read (length : Nat) (payload : Option Json)
  deriving DecidableEq

inductive McpError where
  | stable (error : ToolError)
  | responseTooLarge
  deriving DecidableEq, Repr

def McpError.code : McpError → String
  | .stable error => error.value
  | .responseTooLarge => "UPSTREAM_RESPONSE_TOO_LARGE"

/-- `tool_result_error` of the adapter. -/
def ToolResultEnvelope.failed (code : String) : ToolResultEnvelope where
  success := false
  errorCode := some code
  retryable := code = "UPSTREAM_TIMEOUT"
  source := "mcp"
  confidence := 0

inductive Stage where
  /-- At `async with self._discovery_lock`. -/
  | locking
  | awaiting (message : McpMessage)
  | returned (result : ToolResultEnvelope)
  | cancelled
  deriving DecidableEq

/-- The call is at a message of the introduction. -/
def Stage.introduces : Stage → Bool
  | .awaiting (.callTool _ _ _) => false
  | .awaiting _ => true
  | _ => false

/-- The call is not posted yet. -/
def Stage.early (stage : Stage) : Bool := stage = .locking || stage.introduces

/-- An invocation with its validated arguments. -/
structure ToolCall where
  invocation : ToolInvocation
  arguments : Dict
  stage : Stage := .locking
  deriving DecidableEq

def ToolCall.wants (name : String) (arguments : Dict) (call : ToolCall) : Bool :=
  call.invocation.capability = name ∧ call.arguments = arguments

inductive Entry where
  | posted (message : McpMessage)
  | heard (message : McpMessage) (reply : Reply)
  deriving DecidableEq

def Entry.postedId : Entry → Option Nat
  | .posted message => message.id
  | .heard _ _ => none

/-- The tool is called with the arguments. -/
def Entry.calls (name : String) (arguments : Dict) : Entry → Bool
  | .posted (.callTool _ other given) => other = name ∧ given = arguments
  | _ => false

/-- `MCPToolAdapter`, with its calls and all that was posted and heard. -/
structure McpClient where
  requestId : Nat := 0
  discovered : Option (List (String × Dict)) := none
  /-- The place of the call that has the lock. -/
  holder : Option Nat := none
  calls : List ToolCall := []
  transcript : List Entry := []
  deriving DecidableEq

inductive McpAction where
  | execute (invocation : ToolInvocation)
  | acquire (place : Nat)
  | answer (place : Nat) (reply : Reply)
  | cancel (place : Nat)
  deriving DecidableEq

namespace McpToolRuntime
variable (runtime : McpToolRuntime)

/-- `AgentToolRuntime.execute`, up to the adapter it chooses: the first that supports the
capability. Without one the answer is an error or an exception. -/
def dispatch (invocation : ToolInvocation) : Option (Nat × Dict) := do
  let _ ← (authorize invocation.agentType invocation.capability invocation.invocationMode
    invocation.requestedScopes).toOption
  let arguments ← validateToolArguments runtime.modelValidate invocation.capability
    invocation.arguments
  let server ← runtime.servers.findIdx? (invocation.capability ∈ ·.allowedTools)
  return (server, arguments)

/-- `_rpc`, from the reply on. -/
def rpcResult : Reply → Except McpError Dict
  | .raised error => .error (.stable error)
  | .read length payload =>
      if runtime.maxResponseBytes < length then .error .responseTooLarge
      else match payload with
        | some (.object payload) =>
            if payload.lookup "jsonrpc" ≠ some (.str "2.0") then .error (.stable .upstreamError)
            else if (payload.lookup "error").getD .null ≠ .null then
              .error (.stable .upstreamError)
            else match payload.lookup "result" with
              | some (.object result) => .ok result
              | _ => .error (.stable .upstreamError)
        | _ => .error (.stable .upstreamError)

def named : Json → Option (String × Dict)
  | .object item => match item.lookup "name" with
      | some (.str name) => some (name, item)
      | _ => none
  | _ => none

/-- The tools of a listing by their names; a later one of a name is the one that is found. -/
def listedTools (reply : Reply) : Except McpError (List (String × Dict)) :=
  match runtime.rpcResult reply with
  | .error error => .error error
  | .ok listed => match listed.lookup "tools" with
      | some (.array tools) => .ok (tools.reverse.filterMap named)
      | _ => .error (.stable .upstreamError)

def structured (reply : Reply) : Except McpError ToolResultEnvelope :=
  match runtime.rpcResult reply with
  | .error error => .error error
  | .ok result => match result.lookup "structuredContent" with
      | some (.object content) => match runtime.readEnvelope content with
          | some envelope => .ok envelope
          | none => .error (.stable .invalidToolArguments)
      | _ => .error (.stable .upstreamError)

/-- The tool is listed with the schema that the registry has for it. -/
def pinned (tools : List (String × Dict)) (capability : String) : Bool :=
  (tools.lookup capability).any fun remote =>
    ((remote.lookup "inputSchema").getD .null).equals
      ((toolArgumentModel capability).elim .null runtime.modelJsonSchema)

end McpToolRuntime

namespace McpClient

def post (message : Nat → McpMessage) (place : Nat) (call : ToolCall) (s : McpClient) : McpClient :=
  { s with
    requestId := s.requestId + 1
    calls := s.calls.set place { call with stage := .awaiting (message (s.requestId + 1)) }
    transcript := s.transcript ++ [.posted (message (s.requestId + 1))] }

/-- `_notify` -/
def notify (place : Nat) (call : ToolCall) (s : McpClient) : McpClient :=
  { s with
    calls := s.calls.set place { call with stage := .awaiting .initialized }
    transcript := s.transcript ++ [.posted .initialized] }

/-- A call ends, also by an exception that leaves the lock. -/
def leave (place : Nat) (call : ToolCall) (stage : Stage) (s : McpClient) : McpClient :=
  { s with
    holder := if s.holder = some place then none else s.holder
    calls := s.calls.set place { call with stage := stage } }

def hear (message : McpMessage) (reply : Reply) (s : McpClient) : McpClient :=
  { s with transcript := s.transcript ++ [.heard message reply] }

variable (runtime : McpToolRuntime)

/-- `invoke`, from the tools on. -/
def request (tools : List (String × Dict)) (place : Nat) (call : ToolCall) (s : McpClient) :
    McpClient :=
  if runtime.pinned tools call.invocation.capability then
    s.post (.callTool · call.invocation.capability call.arguments) place call
  else s.leave place call (.returned (.failed "MCP_SCHEMA_MISMATCH"))

/-- A call goes on with the reply to what it has posted. -/
def resume (place : Nat) (call : ToolCall) (reply : Reply) (s : McpClient) : McpMessage → McpClient
  | .initializeRequest _ => match runtime.rpcResult reply with
      | .ok _ => s.notify place call
      | .error error => s.leave place call (.returned (.failed error.code))
  | .initialized => match reply with
      | .read _ _ => s.post .listTools place call
      | .raised error => s.leave place call (.returned (.failed error.value))
  | .listTools _ => match runtime.listedTools reply with
      | .ok tools => request runtime tools place call
          { s with discovered := some tools, holder := none }
      | .error error => s.leave place call (.returned (.failed error.code))
  | .callTool _ _ _ => match runtime.structured reply with
      | .ok result => s.leave place call (.returned result)
      | .error error => s.leave place call (.returned (.failed error.code))

/-- The adapter at a place of the runtime. A free lock is taken in a step of its own, though the
source takes it at once. -/
def machine (server : Nat) : Machine McpClient McpAction where
  initial s := s = {}
  step s
    | .execute invocation => match runtime.dispatch invocation with
        | some (chosen, arguments) =>
            if chosen = server then
              let call : ToolCall := { invocation := invocation, arguments := arguments }
              let known : McpClient := { s with calls := s.calls ++ [call] }
              match s.discovered with
              | some tools => some (request runtime tools s.calls.length call known)
              | none => some known
            else none
        | none => none
    | .acquire place => match s.calls[place]? with
        | some call =>
            if call.stage = .locking ∧ s.holder = none then
              match s.discovered with
              | some tools => some (request runtime tools place call s)
              | none => some ({ s with holder := some place }.post .initializeRequest place call)
            else none
        | none => none
    | .answer place reply => match s.calls[place]? with
        | some call => match call.stage with
            | .awaiting message =>
                some (resume runtime place call reply (s.hear message reply) message)
            | _ => none
        | none => none
    | .cancel place => match s.calls[place]? with
        | some call => match call.stage with
            | .locking | .awaiting _ => some (s.leave place call .cancelled)
            | _ => none
        | none => none

/-- What a message is preceded by: a client introduces itself until tools are listed, each message of
the introduction follows the reply that the one before it was given, and a tool is called after it
was listed with its own schema. -/
def Allowed (before : List Entry) : McpMessage → Prop
  | .initializeRequest _ => ∀ id reply tools, .heard (.listTools id) reply ∈ before →
      runtime.listedTools reply ≠ .ok tools
  | .initialized => ∃ id reply result, before.getLast? = some (.heard (.initializeRequest id) reply) ∧
      runtime.rpcResult reply = .ok result
  | .listTools _ => ∃ length payload,
      before.getLast? = some (.heard .initialized (.read length payload))
  | .callTool _ name _ => ∃ id reply tools, .heard (.listTools id) reply ∈ before ∧
      runtime.listedTools reply = .ok tools ∧ runtime.pinned tools name = true

def Ordered (transcript : List Entry) : Prop :=
  ∀ before message after, transcript = before ++ .posted message :: after →
    Allowed runtime before message

variable {runtime}

theorem Ordered.hear {transcript : List Entry} (ordered : Ordered runtime transcript) :
    Ordered runtime (transcript ++ [.heard message reply]) := by
  intro before posted after whole
  rcases List.eq_nil_or_concat after with rfl | ⟨shorter, last, rfl⟩
  · have ends := (List.append_inj' whole rfl).2
    simp at ends
  · rw [List.concat_eq_append, ← List.cons_append, ← List.append_assoc] at whole
    exact ordered before posted shorter (List.append_inj' whole rfl).1

theorem Ordered.post {transcript : List Entry} (ordered : Ordered runtime transcript)
    (allowed : Allowed runtime transcript message) :
    Ordered runtime (transcript ++ [.posted message]) := by
  intro before posted after whole
  rcases List.eq_nil_or_concat after with rfl | ⟨shorter, last, rfl⟩
  · obtain ⟨rfl, ends⟩ := List.append_inj' whole rfl
    cases ends
    exact allowed
  · rw [List.concat_eq_append, ← List.cons_append, ← List.append_assoc] at whole
    exact ordered before posted shorter (List.append_inj' whole rfl).1

/-- The lock is held by the call that introduces the client, and only by it. -/
structure Locked (s : McpClient) : Prop where
  held : ∀ place, s.holder = some place → ∃ call, s.calls[place]? = some call ∧
    call.stage.introduces = true
  holds : ∀ place call, s.calls[place]? = some call → call.stage.introduces = true →
    s.holder = some place
  unknown : s.holder ≠ none → s.discovered = none

variable {s t : McpClient} {place : Nat} {call : ToolCall}

theorem Locked.takes (locked : Locked s) (found : s.calls[place]? = some call) (next : ToolCall)
    (own : s.holder = none ∨ s.holder = some place) (introduces : next.stage.introduces = true)
    (calls : t.calls = s.calls.set place next) (holder : t.holder = some place)
    (unknown : t.discovered = none) : Locked t := by
  have inside := (List.getElem?_eq_some_iff.mp found).1
  constructor
  · intro other held
    cases holder.symm.trans held
    exact ⟨next, by rw [calls, List.getElem?_set_self inside], introduces⟩
  · intro other call' found' introduces'
    rw [calls] at found'
    by_cases same : place = other
    · exact same ▸ holder
    · rw [List.getElem?_set_ne same] at found'
      have held := locked.holds other call' found' introduces'
      rcases own with free | own
      · cases free.symm.trans held
      · exact absurd (Option.some.inj (own.symm.trans held)) same
  · exact fun _ => unknown

theorem Locked.leaves (locked : Locked s) (found : s.calls[place]? = some call) (next : ToolCall)
    (quiet : next.stage.introduces = false) (calls : t.calls = s.calls.set place next)
    (holder : t.holder = if s.holder = some place then none else s.holder)
    (unknown : t.holder ≠ none → t.discovered = none) : Locked t := by
  have inside := (List.getElem?_eq_some_iff.mp found).1
  refine ⟨fun other held => ?_, fun other call' found' introduces => ?_, unknown⟩
  · rw [holder] at held
    split at held
    · cases held
    · rename_i different
      obtain ⟨call', found', introduces⟩ := locked.held other held
      have apart : place ≠ other := fun same => different (same ▸ held)
      exact ⟨call', by rwa [calls, List.getElem?_set_ne apart], introduces⟩
  · rw [calls] at found'
    by_cases same : place = other
    · subst same
      rw [List.getElem?_set_self inside] at found'
      cases found'
      rw [quiet] at introduces
      cases introduces
    · rw [List.getElem?_set_ne same] at found'
      have held := locked.holds other call' found' introduces
      rw [holder, held, if_neg]
      exact fun taken => same (Option.some.inj taken).symm

/-- A call comes to wait for the lock. -/
theorem Locked.waits (locked : Locked s) (quiet : call.stage.introduces = false)
    (calls : t.calls = s.calls ++ [call]) (holder : t.holder = s.holder)
    (discovered : t.discovered = s.discovered) : Locked t := by
  refine ⟨fun place held => ?_, fun place call' found introduces => ?_, ?_⟩
  · obtain ⟨call', found, introduces⟩ := locked.held place (holder ▸ held)
    have inside := (List.getElem?_eq_some_iff.mp found).1
    exact ⟨call', by rwa [calls, List.getElem?_append_left inside], introduces⟩
  · rw [calls] at found
    by_cases inside : place < s.calls.length
    · rw [List.getElem?_append_left inside] at found
      exact holder ▸ locked.holds place call' found introduces
    · rw [List.getElem?_append_right (Nat.le_of_not_lt inside), List.getElem?_singleton] at found
      split at found
      · cases found
        rw [quiet] at introduces
        cases introduces
      · cases found
  · rw [holder, discovered]
    exact locked.unknown

variable (runtime) in
/-- A call waits for its own tool, and what it returns as a success its server has answered. -/
def Standing (transcript : List Entry) (call : ToolCall) : Prop :=
  match call.stage with
  | .awaiting (.callTool _ name arguments) =>
      name = call.invocation.capability ∧ arguments = call.arguments
  | .returned result => result.success = true → ∃ id reply,
      .heard (.callTool id call.invocation.capability call.arguments) reply ∈ transcript ∧
        runtime.structured reply = .ok result
  | _ => True

theorem Standing.mono {transcript later : List Entry} (stands : Standing runtime transcript call)
    (grown : transcript ⊆ later) : Standing runtime later call := by
  unfold Standing at stands ⊢
  split
  · rename_i stage
    simpa only [stage] using stands
  · rename_i stage
    simp only [stage] at stands
    intro success
    obtain ⟨id, reply, heard, answered⟩ := stands success
    exact ⟨id, reply, grown heard, answered⟩
  · trivial

variable (runtime) in
/-- The tools that are known were listed, and while none are known no listing has succeeded. -/
def Known (discovered : Option (List (String × Dict))) (transcript : List Entry) : Prop :=
  match discovered with
  | some tools => ∃ id reply, .heard (.listTools id) reply ∈ transcript ∧
      runtime.listedTools reply = .ok tools
  | none => ∀ id reply tools, .heard (.listTools id) reply ∈ transcript →
      runtime.listedTools reply ≠ .ok tools

theorem Known.post {discovered : Option (List (String × Dict))} {transcript : List Entry}
    (known : Known runtime discovered transcript) :
    Known runtime discovered (transcript ++ [.posted message]) := by
  cases discovered <;> simpa [Known] using known

theorem Known.hear {discovered : Option (List (String × Dict))} {transcript : List Entry}
    (known : Known runtime discovered transcript)
    (unlisted : ∀ id tools, message = .listTools id → runtime.listedTools reply ≠ .ok tools) :
    Known runtime discovered (transcript ++ [.heard message reply]) := by
  cases discovered with
  | some tools =>
      obtain ⟨id, listing, heard, listed⟩ := known
      exact ⟨id, listing, List.mem_append_left _ heard, listed⟩
  | none =>
      intro id listing tools heard
      rcases List.mem_append.mp heard with earlier | last
      · exact known id listing tools earlier
      · obtain ⟨listing_is, rfl⟩ := by simpa using last
        exact unlisted id tools listing_is.symm

variable (runtime) in
structure Faithful (server : Nat) (s : McpClient) : Prop where
  numbered : s.transcript.filterMap Entry.postedId = List.range' 1 s.requestId
  ordered : Ordered runtime s.transcript
  permitted : ∀ call ∈ s.calls, runtime.dispatch call.invocation = some (server, call.arguments)
  standing : ∀ call ∈ s.calls, Standing runtime s.transcript call

variable {server : Nat} {message : McpMessage} {reply : Reply} {tools : List (String × Dict)}

theorem Faithful.hear (faithful : Faithful runtime server s) (message : McpMessage) (reply : Reply) :
    Faithful runtime server (s.hear message reply) where
  numbered := by
    rw [McpClient.hear, List.filterMap_append, faithful.numbered]
    exact List.append_nil _
  ordered := faithful.ordered.hear
  permitted := faithful.permitted
  standing call member := (faithful.standing call member).mono (List.subset_append_left ..)

/-- A call moves on to its next stage. -/
theorem Faithful.move (faithful : Faithful runtime server s)
    (found : s.calls[place]? = some call) (stage : Stage)
    (calls : t.calls = s.calls.set place { call with stage := stage })
    (grown : s.transcript ⊆ t.transcript)
    (stands : Standing runtime t.transcript { call with stage := stage })
    (numbered : t.transcript.filterMap Entry.postedId = List.range' 1 t.requestId)
    (ordered : Ordered runtime t.transcript) : Faithful runtime server t := by
  refine ⟨numbered, ordered, fun other member => ?_, fun other member => ?_⟩
  · rw [calls] at member
    rcases List.mem_or_eq_of_mem_set member with kept | rfl
    · exact faithful.permitted other kept
    · exact faithful.permitted call (List.mem_of_getElem? found)
  · rw [calls] at member
    rcases List.mem_or_eq_of_mem_set member with kept | rfl
    · exact (faithful.standing other kept).mono grown
    · exact stands

theorem Faithful.post (faithful : Faithful runtime server s)
    (found : s.calls[place]? = some call) {message : Nat → McpMessage}
    (numbers : ∀ id, (message id).id = some id)
    (allowed : Allowed runtime s.transcript (message (s.requestId + 1)))
    (stands : Standing runtime s.transcript
      { call with stage := .awaiting (message (s.requestId + 1)) }) :
    Faithful runtime server (s.post message place call) := by
  have grown : s.transcript ⊆ (s.post message place call).transcript :=
    List.subset_append_left ..
  refine faithful.move found _ rfl grown (stands.mono grown) ?_ (faithful.ordered.post allowed)
  simp only [McpClient.post, List.filterMap_append, faithful.numbered, List.range'_concat]
  simp [Entry.postedId, numbers, Nat.add_comm]

theorem Faithful.notify (faithful : Faithful runtime server s)
    (found : s.calls[place]? = some call) (allowed : Allowed runtime s.transcript .initialized) :
    Faithful runtime server (s.notify place call) := by
  refine faithful.move found _ rfl (List.subset_append_left ..) trivial ?_
    (faithful.ordered.post allowed)
  rw [McpClient.notify, List.filterMap_append, faithful.numbered]
  exact List.append_nil _

theorem Faithful.leave (faithful : Faithful runtime server s)
    (found : s.calls[place]? = some call) {stage : Stage}
    (stands : Standing runtime s.transcript { call with stage := stage }) :
    Faithful runtime server (s.leave place call stage) :=
  faithful.move found stage rfl (List.Subset.refl _) stands faithful.numbered faithful.ordered

theorem Faithful.request (faithful : Faithful runtime server s)
    (found : s.calls[place]? = some call) (known : Known runtime (some tools) s.transcript) :
    Faithful runtime server (request runtime tools place call s) := by
  unfold McpClient.request
  split
  · rename_i pinned
    obtain ⟨id, reply, heard, listed⟩ := known
    exact faithful.post found (fun _ => rfl) ⟨id, reply, tools, heard, listed, pinned⟩ ⟨rfl, rfl⟩
  · exact faithful.leave found nofun

theorem request_discovered :
    (request runtime tools place call s).discovered = s.discovered := by
  unfold request
  split <;> rfl

theorem Known.request (known : Known runtime s.discovered s.transcript) :
    Known runtime (request runtime tools place call s).discovered
      (request runtime tools place call s).transcript := by
  unfold McpClient.request
  split
  · exact Known.post known
  · exact known

/-- A call that has the tools does not need the lock any more. -/
theorem Locked.request (locked : Locked s) (found : s.calls[place]? = some call)
    (own : s.holder = none ∨ s.holder = some place) (calls : t.calls = s.calls)
    (free : t.holder = none) : Locked (request runtime tools place call t) := by
  have released : (none : Option Nat) = if s.holder = some place then none else s.holder := by
    rcases own with none_held | own <;> simp [*]
  unfold McpClient.request
  split
  · refine locked.leaves found { call with stage := .awaiting (.callTool _ _ _) } rfl
      (congrArg (List.set · _ _) calls) (free.trans released) ?_
    exact fun held => absurd free held
  · refine locked.leaves found { call with stage := .returned _ } rfl
      (congrArg (List.set · _ _) calls) ?_ ?_
    · simpa [McpClient.leave, free] using released
    · simp [McpClient.leave, free]

variable (runtime) in
/-- What every run keeps. -/
structure Sound (server : Nat) (s : McpClient) : Prop where
  faithful : Faithful runtime server s
  known : Known runtime s.discovered s.transcript
  locked : Locked s

theorem Sound.hear (sound : Sound runtime server s) (message : McpMessage) (reply : Reply)
    (unlisted : ∀ id tools, message = .listTools id → runtime.listedTools reply ≠ .ok tools) :
    Sound runtime server (s.hear message reply) :=
  ⟨sound.faithful.hear message reply, sound.known.hear unlisted,
    ⟨sound.locked.held, sound.locked.holds, sound.locked.unknown⟩⟩

theorem Sound.leave (sound : Sound runtime server s) (found : s.calls[place]? = some call)
    {stage : Stage} (quiet : stage.introduces = false)
    (stands : Standing runtime s.transcript { call with stage := stage }) :
    Sound runtime server (s.leave place call stage) := by
  refine ⟨sound.faithful.leave found stands, sound.known, ?_⟩
  refine sound.locked.leaves found { call with stage := stage } quiet rfl rfl fun held => ?_
  refine sound.locked.unknown fun free => held ?_
  simp [McpClient.leave, free]

theorem Sound.fail (sound : Sound runtime server s) (found : s.calls[place]? = some call)
    (code : String) : Sound runtime server (s.leave place call (.returned (.failed code))) :=
  sound.leave found rfl (by simp [Standing, ToolResultEnvelope.failed])

/-- The holder of the lock posts its next message. -/
theorem Sound.post (sound : Sound runtime server s) (found : s.calls[place]? = some call)
    {message : Nat → McpMessage} (numbers : ∀ id, (message id).id = some id)
    (introduces : ∀ id, (Stage.awaiting (message id)).introduces = true)
    (held : s.holder = some place)
    (allowed : Allowed runtime s.transcript (message (s.requestId + 1))) :
    Sound runtime server (s.post message place call) := by
  have stands : Standing runtime s.transcript
      { call with stage := .awaiting (message (s.requestId + 1)) } := by
    have introduces := introduces (s.requestId + 1)
    unfold Standing
    split
    · rename_i posted
      simp only [Stage.awaiting.injEq] at posted
      simp [posted, Stage.introduces] at introduces
    · rename_i posted
      cases posted
    · trivial
  refine ⟨sound.faithful.post found numbers allowed stands, sound.known.post, ?_⟩
  refine sound.locked.takes found { call with stage := .awaiting _ } (.inr held)
    (introduces (s.requestId + 1)) rfl held ?_
  exact sound.locked.unknown (by simp [held])

theorem Sound.notify (sound : Sound runtime server s) (found : s.calls[place]? = some call)
    (held : s.holder = some place) (allowed : Allowed runtime s.transcript .initialized) :
    Sound runtime server (s.notify place call) := by
  refine ⟨sound.faithful.notify found allowed, sound.known.post, ?_⟩
  refine sound.locked.takes found { call with stage := .awaiting .initialized } (.inr held) rfl rfl
    held ?_
  exact sound.locked.unknown (by simp [held])

/-- A call goes on with the tools while nobody holds the lock. -/
theorem Sound.request (sound : Sound runtime server s) (found : s.calls[place]? = some call)
    (known : s.discovered = some tools) :
    Sound runtime server (request runtime tools place call s) := by
  have free : s.holder = none := by
    by_contra held
    cases known.symm.trans (sound.locked.unknown held)
  exact ⟨sound.faithful.request found (known ▸ sound.known), sound.known.request,
    sound.locked.request found (.inl free) rfl free⟩

theorem Sound.resume (sound : Sound runtime server s) (found : s.calls[place]? = some call)
    (waits : call.stage = .awaiting message) :
    Sound runtime server (resume runtime place call reply (s.hear message reply) message) := by
  have held (introduces : (Stage.awaiting message).introduces = true) : s.holder = some place :=
    sound.locked.holds place call found (waits ▸ introduces)
  have last : (s.hear message reply).transcript.getLast? = some (.heard message reply) :=
    List.getLast?_concat ..
  cases message with
  | initializeRequest id =>
      have heard := sound.hear (.initializeRequest id) reply nofun
      simp only [McpClient.resume]
      split
      · rename_i result accepted
        exact heard.notify found (held rfl) ⟨id, reply, result, last, accepted⟩
      · exact heard.fail found _
  | initialized =>
      have heard := sound.hear .initialized reply nofun
      simp only [McpClient.resume]
      split
      · rename_i length payload
        exact heard.post found (fun _ => rfl) (fun _ => rfl) (held rfl) ⟨length, payload, last⟩
      · exact heard.fail found _
  | listTools id =>
      simp only [McpClient.resume]
      split
      · rename_i tools listed
        have faithful := sound.faithful.hear (.listTools id) reply
        have learned : Faithful runtime server
            { s.hear (.listTools id) reply with discovered := some tools, holder := none } :=
          ⟨faithful.numbered, faithful.ordered, faithful.permitted, faithful.standing⟩
        have known : Known runtime (some tools) (s.hear (.listTools id) reply).transcript :=
          ⟨id, reply, List.mem_append_right _ (List.mem_singleton_self _), listed⟩
        exact ⟨learned.request found known, known.request, sound.locked.request found
          (.inr (held rfl)) rfl rfl⟩
      · rename_i error refused
        refine (sound.hear _ reply fun _ tools _ listed => ?_).fail found _
        cases refused.symm.trans listed
  | callTool id name arguments =>
      have heard := sound.hear (.callTool id name arguments) reply nofun
      have own := sound.faithful.standing call (List.mem_of_getElem? found)
      simp only [Standing, waits] at own
      obtain ⟨rfl, rfl⟩ := own
      simp only [McpClient.resume]
      split
      · rename_i result answered
        refine heard.leave found rfl fun _ => ⟨id, reply, ?_, answered⟩
        exact List.mem_append_right _ (List.mem_singleton_self _)
      · exact heard.fail found _

theorem Sound.step (sound : Sound runtime server s)
    (stepped : (machine runtime server).step s action = some t) : Sound runtime server t := by
  cases action with
  | execute invocation =>
      simp only [machine] at stepped
      split at stepped
      · rename_i chosen arguments sent
        split at stepped
        · rename_i own
          subst own
          have waiting : Sound runtime chosen { s with
              calls := s.calls ++ [{ invocation := invocation, arguments := arguments }] } := by
            refine ⟨⟨sound.faithful.numbered, sound.faithful.ordered, ?_, ?_⟩, sound.known,
              sound.locked.waits rfl rfl rfl rfl⟩
            · simpa [or_imp, forall_and] using ⟨sound.faithful.permitted, sent⟩
            · simpa [or_imp, forall_and] using ⟨sound.faithful.standing, trivial⟩
          have found : (s.calls ++ [{ invocation := invocation, arguments := arguments }])[
              s.calls.length]? = some { invocation := invocation, arguments := arguments } := by
            simp
          split at stepped
          · rename_i tools known
            cases stepped
            exact waiting.request found known
          · cases stepped
            exact waiting
        · cases stepped
      · cases stepped
  | acquire place =>
      simp only [machine] at stepped
      split at stepped
      · rename_i call found
        split at stepped
        · rename_i ready
          split at stepped
          · rename_i tools known
            cases stepped
            exact sound.request found known
          · rename_i unknown
            cases stepped
            have unlisted := unknown ▸ sound.known
            have faithful : Faithful runtime server { s with holder := some place } :=
              ⟨sound.faithful.numbered, sound.faithful.ordered, sound.faithful.permitted,
                sound.faithful.standing⟩
            refine ⟨faithful.post found (fun _ => rfl) unlisted trivial, sound.known.post, ?_⟩
            exact sound.locked.takes found { call with stage := .awaiting (.initializeRequest _) }
              (.inl ready.2) rfl rfl rfl unknown
        · cases stepped
      · cases stepped
  | answer place reply =>
      simp only [machine] at stepped
      split at stepped
      · rename_i call found
        split at stepped
        · rename_i message waits
          cases stepped
          exact sound.resume found waits
        · cases stepped
      · cases stepped
  | cancel place =>
      simp only [machine] at stepped
      split at stepped
      · rename_i call found
        split at stepped
        · cases stepped
          exact sound.leave found rfl trivial
        · cases stepped
          exact sound.leave found rfl trivial
        · cases stepped
      · cases stepped

theorem sound (reached : (machine runtime server).Reachable s) : Sound runtime server s := by
  refine reached.invariant (P := Sound runtime server) ?_ Sound.step
  intro s started
  subst started
  have ordered : Ordered runtime [] := by
    intro before message after whole
    cases before <;> cases whole
  refine ⟨⟨rfl, ordered, by simp, by simp⟩, by simp [Known], ?_⟩
  constructor <;> simp

/-- Each call is posted at most once: those that are not posted yet are counted apart. -/
def Counted (name : String) (arguments : Dict) (s : McpClient) : Prop :=
  s.transcript.countP (Entry.calls name arguments) +
      s.calls.countP (fun call => call.wants name arguments && call.stage.early) ≤
    s.calls.countP (ToolCall.wants name arguments)

variable {name : String} {arguments : Dict} {stage : Stage}

theorem countP_set_add {α : Type} {p : α → Bool} {l : List α} {a b : α} (found : l[i]? = some a) :
    (l.set i b).countP p + (if p a then 1 else 0) = l.countP p + (if p b then 1 else 0) := by
  obtain ⟨inside, rfl⟩ := List.getElem?_eq_some_iff.mp found
  rw [List.countP_set inside]
  have counted : (if p l[i] then 1 else 0) ≤ l.countP p := by
    split
    · exact List.countP_pos_iff.mpr ⟨_, List.getElem_mem inside, ‹_›⟩
    · exact Nat.zero_le _
  omega

/-- A call moves on, and what it posts of the tool it has not posted before. -/
theorem Counted.move (counted : Counted name arguments s) (found : s.calls[place]? = some call)
    (entries : List Entry)
    (calls : t.calls = s.calls.set place { call with stage := stage })
    (grown : t.transcript = s.transcript ++ entries)
    (less : entries.countP (Entry.calls name arguments) +
        (if call.wants name arguments && stage.early then 1 else 0) ≤
      if call.wants name arguments && call.stage.early then 1 else 0) :
    Counted name arguments t := by
  have early := countP_set_add (b := { call with stage := stage }) found
    (p := fun call => call.wants name arguments && call.stage.early)
  have wants := countP_set_add (b := { call with stage := stage }) found
    (p := ToolCall.wants name arguments)
  have same : ({ call with stage := stage } : ToolCall).wants name arguments =
      call.wants name arguments := rfl
  unfold Counted at counted ⊢
  rw [calls, grown, List.countP_append]
  simp only [same] at early wants
  omega

theorem Counted.hear (counted : Counted name arguments s) :
    Counted name arguments (s.hear message reply) := by
  unfold Counted at counted ⊢
  rw [McpClient.hear, List.countP_append]
  simpa [Entry.calls] using counted

theorem Counted.leave (counted : Counted name arguments s)
    (found : s.calls[place]? = some call) (late : stage.early = false) :
    Counted name arguments (s.leave place call stage) :=
  counted.move found [] rfl (List.append_nil _).symm (by simp [late])

theorem Counted.request (counted : Counted name arguments s)
    (found : s.calls[place]? = some call) (early : call.stage.early = true) :
    Counted name arguments (request runtime tools place call s) := by
  unfold McpClient.request
  split
  · refine counted.move found [_] rfl rfl ?_
    have posted : Entry.calls name arguments (.posted (.callTool (s.requestId + 1)
        call.invocation.capability call.arguments)) = call.wants name arguments := rfl
    rw [List.countP_singleton, posted, early]
    simp [Stage.early, Stage.introduces]
  · exact counted.leave found rfl

theorem Counted.resume (counted : Counted name arguments s)
    (found : s.calls[place]? = some call) (waits : call.stage = .awaiting message) :
    Counted name arguments (resume runtime place call reply (s.hear message reply) message) := by
  have heard : Counted name arguments (s.hear message reply) := counted.hear
  cases message with
  | initializeRequest id =>
      simp only [McpClient.resume]
      split
      · exact heard.move found [.posted .initialized] rfl rfl (by
          simp [Entry.calls, waits, Stage.early, Stage.introduces])
      · exact heard.leave found rfl
  | initialized =>
      simp only [McpClient.resume]
      split
      · exact heard.move found [.posted (.listTools _)] rfl rfl (by
          simp [Entry.calls, waits, Stage.early, Stage.introduces])
      · exact heard.leave found rfl
  | listTools id =>
      simp only [McpClient.resume]
      split
      · exact Counted.request (s := { s.hear (.listTools id) reply with
          discovered := some _, holder := none }) heard found (by simp [waits, Stage.early,
            Stage.introduces])
      · exact heard.leave found rfl
  | callTool id other given =>
      simp only [McpClient.resume]
      split
      · exact heard.leave found rfl
      · exact heard.leave found rfl

theorem Counted.step (counted : Counted name arguments s)
    (stepped : (machine runtime server).step s action = some t) :
    Counted name arguments t := by
  cases action with
  | execute invocation =>
      simp only [machine] at stepped
      split at stepped
      · rename_i chosen given sent
        split at stepped
        · have waiting : Counted name arguments { s with
              calls := s.calls ++ [{ invocation := invocation, arguments := given }] } := by
            unfold Counted at counted ⊢
            have fresh : Stage.early .locking = true := rfl
            simp only [List.countP_append, List.countP_singleton, fresh, Bool.and_true]
            omega
          have found : (s.calls ++ [{ invocation := invocation, arguments := given }])[
              s.calls.length]? = some { invocation := invocation, arguments := given } := by
            simp
          split at stepped
          · cases stepped
            exact waiting.request found rfl
          · cases stepped
            exact waiting
        · cases stepped
      · cases stepped
  | acquire place =>
      simp only [machine] at stepped
      split at stepped
      · rename_i call found
        split at stepped
        · rename_i ready
          have early : call.stage.early = true := by simp [Stage.early, ready.1]
          split at stepped
          · cases stepped
            exact counted.request found early
          · cases stepped
            exact counted.move found [.posted (.initializeRequest _)] rfl rfl (by
              rw [early]
              simp [Entry.calls, Stage.introduces, Stage.early])
        · cases stepped
      · cases stepped
  | answer place reply =>
      simp only [machine] at stepped
      split at stepped
      · rename_i call found
        split at stepped
        · rename_i message waits
          cases stepped
          exact counted.resume found waits
        · cases stepped
      · cases stepped
  | cancel place =>
      simp only [machine] at stepped
      split at stepped
      · rename_i call found
        split at stepped
        · cases stepped
          exact counted.leave found rfl
        · cases stepped
          exact counted.leave found rfl
        · cases stepped
      · cases stepped

theorem counted (reached : (machine runtime server).Reachable s) : Counted name arguments s := by
  refine reached.invariant (P := Counted name arguments) ?_ Counted.step
  intro s started
  subst started
  exact Nat.le_refl 0

/-! ### What the client keeps to -/

theorem dispatch_sent {invocation : ToolInvocation}
    (sent : runtime.dispatch invocation = some (server, arguments)) :
    (∃ capability, authorize invocation.agentType invocation.capability invocation.invocationMode
        invocation.requestedScopes = .ok capability) ∧
      validateToolArguments runtime.modelValidate invocation.capability invocation.arguments =
        some arguments ∧
      ∃ config, runtime.servers[server]? = some config ∧
        invocation.capability ∈ config.allowedTools := by
  simp only [McpToolRuntime.dispatch, Option.bind_eq_bind, Option.bind_eq_some_iff, Option.pure_def,
    Option.some.injEq, Prod.mk.injEq] at sent
  obtain ⟨capability, granted, valid, validated, chosen, first, rfl, rfl⟩ := sent
  refine ⟨⟨capability, ?_⟩, validated, ?_⟩
  · cases answer : authorize invocation.agentType invocation.capability invocation.invocationMode
      invocation.requestedScopes with
    | ok given =>
        rw [answer] at granted
        exact congrArg _ (Option.some.inj granted)
    | error reason =>
        rw [answer] at granted
        cases granted
  · obtain ⟨inside, allowed, -⟩ := List.findIdx?_eq_some_iff_getElem.mp first
    exact ⟨_, List.getElem?_eq_getElem inside, of_decide_eq_true allowed⟩

variable (runtime) in
/-- What a server gets to see, in which order, and what the calls get back. -/
structure Introduced (server : Nat) (s : McpClient) : Prop where
  numbered : s.transcript.filterMap Entry.postedId = List.range' 1 s.requestId
  ordered : Ordered runtime s.transcript
  permitted : ∀ id name arguments, .posted (.callTool id name arguments) ∈ s.transcript →
    ∃ call ∈ s.calls, call.invocation.capability = name ∧ call.arguments = arguments ∧
      (∃ capability, authorize call.invocation.agentType name call.invocation.invocationMode
        call.invocation.requestedScopes = .ok capability) ∧
      validateToolArguments runtime.modelValidate name call.invocation.arguments =
        some arguments ∧
      ∃ config, runtime.servers[server]? = some config ∧ name ∈ config.allowedTools
  once : ∀ name arguments, s.transcript.countP (Entry.calls name arguments) ≤
    s.calls.countP (ToolCall.wants name arguments)
  backed : ∀ call ∈ s.calls, ∀ result, call.stage = .returned result → result.success = true →
    ∃ id reply, .heard (.callTool id call.invocation.capability call.arguments) reply ∈
      s.transcript ∧ runtime.structured reply = .ok result
  /-- A call that waits for the lock can have it, or another call waits for the server. -/
  goes : ∀ place call, s.calls[place]? = some call → call.stage = .locking →
    (∃ t, (machine runtime server).step s (.acquire place) = some t) ∨
      ∃ other ∈ s.calls, ∃ message, other.stage = .awaiting message

theorem Stage.awaiting_of_introduces (introduces : Stage.introduces stage = true) :
    ∃ message, stage = .awaiting message := by
  cases stage with
  | awaiting message => exact ⟨message, rfl⟩
  | locking => cases introduces
  | returned result => cases introduces
  | cancelled => cases introduces

/-- However tool calls, the server's answers, errors and cancellations interleave: the client numbers
what it posts, introduces itself in order and until tools are listed, and calls only tools that
were listed with their own schema, for invocations that were permitted and once for each. -/
theorem calls_introduced (reached : (machine runtime server).Reachable s) :
    Introduced runtime server s := by
  obtain ⟨faithful, known, locked⟩ := sound reached
  have once (name : String) (arguments : Dict) :
      s.transcript.countP (Entry.calls name arguments) ≤
        s.calls.countP (ToolCall.wants name arguments) :=
    (Nat.le_add_right ..).trans (counted reached)
  refine ⟨faithful.numbered, faithful.ordered, ?_, once, ?_, ?_⟩
  · intro id name arguments posted
    have some_posted : 0 < s.transcript.countP (Entry.calls name arguments) :=
      List.countP_pos_iff.mpr ⟨_, posted, by simp [Entry.calls]⟩
    obtain ⟨call, member, wants⟩ :=
      List.countP_pos_iff.mp (some_posted.trans_le (once name arguments))
    obtain ⟨rfl, rfl⟩ := of_decide_eq_true wants
    exact ⟨call, member, rfl, rfl, dispatch_sent (faithful.permitted call member)⟩
  · intro call member result returned success
    have stands := faithful.standing call member
    simp only [Standing, returned] at stands
    exact stands success
  · intro place call found waits
    cases held : s.holder with
    | none =>
        left
        simp only [machine, found, waits, held, and_self, if_true]
        split
        · exact ⟨_, rfl⟩
        · exact ⟨_, rfl⟩
    | some other =>
        right
        obtain ⟨holder, taken, introduces⟩ := locked.held other held
        exact ⟨holder, List.mem_of_getElem? taken, Stage.awaiting_of_introduces introduces⟩

def weatherRuntime : McpToolRuntime where
  servers := [⟨"weather", ["get_weather"]⟩]
  modelValidate _ arguments := some arguments
  modelJsonSchema _ := .object [("type", .str "object"), ("title", .str "WeatherQueryArgs")]
  readEnvelope content :=
    if content.lookup "success" = some (.bool true) then some { success := true } else none

def weatherInvocation : ToolInvocation :=
  ⟨.companion, "get_weather", .agentCallable, [.weather], []⟩

def answered (result : Dict) : Reply :=
  .read 200 (some (.object [("jsonrpc", .str "2.0"), ("result", .object result)]))

/-- Two calls wait for one introduction; the first to be listed is posted first. -/
def weatherScript : List McpAction := [
  .execute weatherInvocation, .execute weatherInvocation, .acquire 1, .answer 1 (answered []),
  .answer 1 (.read 0 none),
  .answer 1 (answered [("tools", .array [.object [("name", .str "get_weather"), ("inputSchema",
    .object [("title", .str "WeatherQueryArgs"), ("type", .str "object")])]])]),
  .acquire 0, .cancel 1,
  .answer 0 (answered [("structuredContent", .object [("success", .bool true)])])]

theorem calls_introduced_weather : ∃ s, (machine weatherRuntime 0).run {} weatherScript = some s ∧
    s.requestId = 4 ∧ s.calls.map ToolCall.stage = [.returned { success := true }, .cancelled] ∧
    Introduced weatherRuntime 0 s :=
  ⟨_, rfl, rfl, rfl, calls_introduced (Machine.reachable_of_run weatherScript rfl rfl)⟩

end McpClient
end Agents
end MapGo
