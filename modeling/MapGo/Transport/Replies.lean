import MapGo.Json
import MapGo.Messages.Router
import MapGo.Transport.Bounded

/-! The responses of role workers. A worker publishes the response of an execution into the reply
inbox and then acknowledges the request; a request that is delivered again is executed again, and
only the idempotency key of the new response can tell that there is one already. -/
namespace MapGo.Transport

open Transition
open MapGo.Messages (AgentEndpoint AgentMessageRouter)

/-- The outcome of an agent, as a role worker sends it. -/
structure RoleExecution where
  output : Json
  artifact : Json
  latencyMs : Nat
  inputTokens : Int := 0
  outputTokens : Int := 0
  estimatedCostUsd : ℚ := 0
  fallbackUsed : Bool := false
  reason : Option String := none
  toolCalls : List Json := []
  toolAuditComplete : Bool := true

namespace RoleExecution
variable (execution : RoleExecution)

def metrics : Json :=
  .object [("latency_ms", .number execution.latencyMs),
    ("input_tokens", .number execution.inputTokens),
    ("output_tokens", .number execution.outputTokens),
    ("estimated_cost_usd", .number execution.estimatedCostUsd),
    ("fallback_used", .bool execution.fallbackUsed),
    ("reason", execution.reason.elim .null .str)]

/-- `_execution_content` -/
def content : Json :=
  .object [("output", execution.output), ("artifact", execution.artifact),
    ("metrics", execution.metrics), ("tool_calls", .array execution.toolCalls),
    ("tool_audit_complete", .bool execution.toolAuditComplete)]

end RoleExecution

/-- The roles that `build_role_handler` knows. -/
inductive Role where
  | planner | critic | replanner
  deriving DecidableEq, Repr

namespace Role

def sender : Role → AgentEndpoint
  | .planner => .planner
  | .critic => .critic
  | .replanner => .replanner

def receiver : Role → AgentEndpoint
  | .replanner => .planner
  | _ => .supervisor

def artifactType : Role → String
  | .planner => "planner_execution"
  | .critic => "critic_execution"
  | .replanner => "replan_directive"

/-- The content of a response. -/
def content (role : Role) (execution : RoleExecution) : Json :=
  match role with
  | .replanner => .object [("directive", execution.output), ("execution", execution.metrics)]
  | _ => execution.content

end Role

/-- What a response takes over from its request. -/
structure RoleRequest where
  messageId : String
  taskId : String
  correlationId : String
  replyTo : Option String

/-- `_response` and `AgentMessageRouter.build`; `none` without a reply inbox, or when the content is
too large. The idempotency key is set last. -/
def response (router : AgentMessageRouter Json) (role : Role) (request : RoleRequest)
    (execution : RoleExecution) : Option (Messages.AgentMessage Json) :=
  let content := role.content execution
  request.replyTo.bind fun inbox =>
    if Messages.maxAgentMessageBytes < router.bytes content then none
    else
      let message : Messages.AgentMessage Json :=
        { taskId := request.taskId
          sender := role.sender
          receiver := role.receiver
          messageType := .result
          artifactType := role.artifactType
          content := content
          contentHash := router.sha256 content
          idempotencyKey := ""
          correlationId := request.correlationId
          causationId := some request.messageId
          inbox := some inbox }
      some { message with idempotencyKey := router.sha256Object message.identity }

/-- `RecoverableAgentMessageBus.publish` up to the transport: the key of a response that passes the
router. A response does not expire. -/
def responseKey (router : AgentMessageRouter Json) (role : Role) (request : RoleRequest)
    (execution : RoleExecution) : Option String :=
  (response router role request execution).bind fun message =>
    match router.validateEnvelope message with
    | .ok () => some message.idempotencyKey
    | .error _ => none

/-- A run of role workers with what they have published. Requests and responses share the
idempotency keys of the transport. -/
structure ReplyRun where
  workers : WorkerRun RedisStreamTransport
  /-- The workers whose execution has published its response. -/
  replied : Nat → Bool := fun _ => false
  /-- History: the request of each response in a reply inbox, in order. -/
  responses : List Nat := []

inductive ReplyAction where
  | work (action : WorkerAction)
  | reply (worker : Nat) (execution : RoleExecution)

/-- The worker of an action that begins or ends an execution. -/
def WorkerAction.clears : WorkerAction → Option Nat
  | .start worker | .succeed worker | .fail worker _ | .crash worker => some worker
  | _ => none

/-- An acknowledgement before the response. -/
def ReplyRun.early (s : ReplyRun) : WorkerAction → Bool
  | .succeed worker => !s.replied worker
  | _ => false

/-- The request and the response key of a reply. -/
def ReplyRun.answer (s : ReplyRun) (router : AgentMessageRouter Json) (role : Role)
    (request : Nat → RoleRequest) (worker : Nat) (execution : RoleExecution) :
    Option (Nat × String) :=
  match s.workers.works worker with
  | .handling d =>
      if s.replied worker then none
      else (responseKey router role (request d.message.publication) execution).map fun key =>
        (d.message.publication, key)
  | _ => none

/-- `_PUBLISH_SCRIPT` for the response to a request. -/
def ReplyRun.publishReply (s : ReplyRun) (publication : Nat) (key : String) : ReplyRun :=
  let transport := s.workers.transport
  if key ∈ transport.published then s
  else
    { s with
      workers := { s.workers with
        transport := { transport with published := transport.published ++ [key] } }
      responses := s.responses ++ [publication] }

/-- `run_once` of any number of workers of one role: the steps of the stream workers, and the
publication of the response between the execution and its acknowledgement. An execution whose
response cannot be built or published fails. -/
def replyWorkers (agent : AgentTaskWorker) (router : AgentMessageRouter Json) (role : Role)
    (request : Nat → RoleRequest) : Machine ReplyRun ReplyAction where
  initial s := s = { workers := { transport := {} } }
  step s
    | .work action =>
        if s.early action then none
        else ((streamWorkers agent).step s.workers action).map fun workers =>
          { s with
            workers := workers
            replied := action.clears.elim s.replied fun worker =>
              Function.update s.replied worker false }
    | .reply worker execution =>
        (s.answer router role request worker execution).map fun answer =>
          { s.publishReply answer.1 answer.2 with
            replied := Function.update s.replied worker true }

/-- The responses published to a request. -/
def ReplyRun.answers (s : ReplyRun) (publication : Nat) : Nat := s.responses.count publication

/-- A reply to an answered request has an idempotency key that is remembered. -/
def ReplyRun.recognized (s : ReplyRun) (router : AgentMessageRouter Json) (role : Role)
    (request : Nat → RoleRequest) : ReplyAction → Prop
  | .work _ => True
  | .reply worker execution => ∀ answer ∈ s.answer router role request worker execution,
      answer.1 ∈ s.responses → answer.2 ∈ s.workers.transport.published

instance (s : ReplyRun) (router : AgentMessageRouter Json) (role : Role)
    (request : Nat → RoleRequest) : (action : ReplyAction) →
    Decidable (s.recognized router role request action)
  | .work _ => inferInstanceAs (Decidable True)
  | .reply worker execution => inferInstanceAs (Decidable
      (∀ answer ∈ s.answer router role request worker execution,
        answer.1 ∈ s.responses → answer.2 ∈ s.workers.transport.published))

section
variable {agent : AgentTaskWorker} {router : AgentMessageRouter Json} {role : Role}
  {request : Nat → RoleRequest} {s t : ReplyRun} {action : ReplyAction}

theorem publishReply_responses (s : ReplyRun) (publication : Nat) (key : String) :
    (s.publishReply publication key).responses =
      if key ∈ s.workers.transport.published then s.responses
      else s.responses ++ [publication] := by
  unfold ReplyRun.publishReply
  dsimp only
  split <;> rfl

/-- Only a reply publishes a response. -/
theorem work_responses {own : WorkerAction}
    (moved : (replyWorkers agent router role request).step s (.work own) = some t) :
    t.responses = s.responses := by
  simp only [replyWorkers] at moved
  split at moved
  · cases moved
  · obtain ⟨workers, -, rfl⟩ := Option.map_eq_some_iff.mp moved
    rfl

theorem reply_responses {worker : Nat} {execution : RoleExecution}
    (moved : (replyWorkers agent router role request).step s (.reply worker execution) = some t) :
    ∃ answer, s.answer router role request worker execution = some answer ∧
      t.responses = if answer.2 ∈ s.workers.transport.published then s.responses
        else s.responses ++ [answer.1] := by
  obtain ⟨answer, given, rfl⟩ := Option.map_eq_some_iff.mp moved
  exact ⟨answer, given, publishReply_responses s answer.1 answer.2⟩

/-- While every request has at most one response, a step keeps that exactly if it is recognized. -/
theorem step_single_iff (single : ∀ publication, s.answers publication ≤ 1)
    (moved : (replyWorkers agent router role request).step s action = some t) :
    (∀ publication, t.answers publication ≤ 1) ↔ s.recognized router role request action := by
  cases action with
  | work own =>
      refine iff_of_true ?_ trivial
      intro publication
      rw [ReplyRun.answers, work_responses moved]
      exact single publication
  | reply worker execution =>
      obtain ⟨answer, given, responses⟩ := reply_responses moved
      have only : s.recognized router role request (.reply worker execution) ↔
          (answer.1 ∈ s.responses → answer.2 ∈ s.workers.transport.published) := by
        simp [ReplyRun.recognized, given]
      rw [only]
      unfold ReplyRun.answers at single ⊢
      rw [responses]
      split
      · rename_i remembered
        exact iff_of_true single fun _ => remembered
      · rename_i forgotten
        constructor
        · intro still answered
          have again := still answer.1
          have before := List.count_pos_iff.mpr answered
          rw [List.count_append, List.count_singleton_self] at again
          omega
        · intro recognized publication
          rw [List.count_append, List.count_singleton]
          by_cases same : answer.1 = publication
          · subst same
            have fresh := List.count_eq_zero.mpr fun answered => forgotten (recognized answered)
            simp [fresh]
          · simpa [same] using single publication

theorem single_of_reachable
    (reached : ((replyWorkers agent router role request).restrict fun s action =>
      s.recognized router role request action).Reachable s) :
    ∀ publication, s.answers publication ≤ 1 := by
  refine reached.invariant (P := fun s => ∀ publication, s.answers publication ≤ 1) ?_ ?_
  · rintro s rfl publication
    exact Nat.zero_le _
  · intro s action t single moved
    obtain ⟨recognized, moved⟩ := Machine.restrict_step.mp moved
    exact (step_single_iff single moved).mpr recognized

/-- Equal contents have equal keys. -/
theorem responseKey_congr {own : RoleRequest} {first second : RoleExecution}
    (same : role.content first = role.content second) :
    responseKey router role own first = responseKey router role own second := by
  unfold responseKey response
  rw [same]

end

/-- In every run in which each reply to an answered request has a key that is remembered, every
request has at most one response; and a step that is not so gives a request a second one. -/
theorem one_response_per_request (agent : AgentTaskWorker) (router : AgentMessageRouter Json)
    (role : Role) (request : Nat → RoleRequest) {s : ReplyRun}
    (reached : ((replyWorkers agent router role request).restrict fun s action =>
      s.recognized router role request action).Reachable s) :
    (∀ publication, s.answers publication ≤ 1) ∧
    ∀ action t, (replyWorkers agent router role request).step s action = some t →
      ((∀ publication, t.answers publication ≤ 1) ↔ s.recognized router role request action) :=
  ⟨single_of_reachable reached,
    fun _ _ moved => step_single_iff (single_of_reachable reached) moved⟩

/-- A planner execution of some duration. -/
def timedExecution (latencyMs : Nat) : RoleExecution where
  output := .object [("status", .str "success")]
  artifact := .object []
  latencyMs := latencyMs

/-- A router that tells an execution of 5 ms from others. -/
def timingRouter : AgentMessageRouter Json where
  payloadError _ _ _ := none
  bytes _ := 200
  sha256 content :=
    if content = (timedExecution 5).content then "hash of 5 ms" else "hash of others"
  sha256Object members :=
    "".intercalate (members.map fun member => member.1 ++ member.2.getD "None")

def plannerRequest (publication : Nat) : RoleRequest where
  messageId := "request-" ++ toString publication
  taskId := "task-0001"
  correlationId := "correlation-1"
  replyTo := some "reply-0123456789abcdef"

/-- A worker replies and dies before it acknowledges; another reclaims the request and replies. -/
def repliedTwice (first second : Nat) : List ReplyAction :=
  [.work (.publish "request" 1), .work (.receive 0), .work (.start 0),
    .reply 0 (timedExecution first), .work (.crash 0), .work (.wait 30000), .work (.reclaim 1 0),
    .work (.count 1), .work (.start 1), .reply 1 (timedExecution second), .work (.succeed 1)]

/-- Two executions of 5 ms give one response. -/
theorem one_response_per_request_repeated : ∃ s : ReplyRun,
    (replyWorkers defaultWorker timingRouter .planner plannerRequest).run
      { workers := { transport := {} } } (repliedTwice 5 5) = some s ∧
    (∀ publication, s.answers publication ≤ 1) ∧ s.responses = [0] := by
  have ran : ∃ s, (replyWorkers defaultWorker timingRouter .planner plannerRequest).run
      { workers := { transport := {} } } (repliedTwice 5 5) = some s ∧ s.responses = [0] := by
    decide +kernel
  obtain ⟨s, ran, responses⟩ := ran
  have met : (replyWorkers defaultWorker timingRouter .planner plannerRequest).along
      (fun s action => decide (s.recognized timingRouter .planner plannerRequest action))
      { workers := { transport := {} } } (repliedTwice 5 5) = true := by decide +kernel
  have recognized := (Machine.meetsAlong_of_along met).mono fun _ _ holds => of_decide_eq_true holds
  have reached := Machine.reachable_restrict_of_run _ rfl ran recognized
  exact ⟨s, ran, (one_response_per_request _ _ _ _ reached).1, responses⟩

/-- An execution of 5 ms and one of 7 ms give two. -/
theorem reexecution_answers_twice : ∃ s : ReplyRun,
    (replyWorkers defaultWorker timingRouter .planner plannerRequest).Reachable s ∧
      s.answers 0 = 2 := by
  have ran : ∃ s, (replyWorkers defaultWorker timingRouter .planner plannerRequest).run
      { workers := { transport := {} } } (repliedTwice 5 7) = some s ∧ s.answers 0 = 2 := by
    decide +kernel
  obtain ⟨s, ran, twice⟩ := ran
  exact ⟨s, Machine.reachable_of_run _ rfl ran, twice⟩

end MapGo.Transport
