import MapGo.Agents.Tools
import MapGo.Exits

/-! The runtime that runs any agent through the same bounded tool loop. What a run works with (the
deciders, the tool executor, the policy, the callbacks) is given as functions of what they are shown;
the steps made so far are always among it, so that they may answer differently each time. -/
namespace MapGo.Agents

open Exits
open MapGo.Shared (AgentType)

/-- `stable_tool_error` -/
inductive ToolError where
  | upstreamTimeout | quotaExhausted | dataExpired | invalidToolArguments | upstreamError
  deriving DecidableEq, Repr

def ToolError.value : ToolError → String
  | .upstreamTimeout => "UPSTREAM_TIMEOUT"
  | .quotaExhausted => "QUOTA_EXHAUSTED"
  | .dataExpired => "DATA_EXPIRED"
  | .invalidToolArguments => "INVALID_TOOL_ARGUMENTS"
  | .upstreamError => "UPSTREAM_ERROR"

/-- An exception with its stable code, or a cancellation, which no `except Exception` catches. -/
inductive Raised where
  | exception (error : ToolError)
  | cancelled
  deriving DecidableEq, Repr

structure AgentDecision where
  action : String
  tool : Option String := none
  arguments : Dict := []
  reason : String

structure DecisionResult where
  decision : AgentDecision
  inputTokens : Int := 0
  outputTokens : Int := 0
  modelName : String := "rule-agent-v1"
  inputCostPerMillionUsd : ℚ := 0
  outputCostPerMillionUsd : ℚ := 0

structure AgentBudget where
  maxSteps : Nat := 1
  maxInputTokens : Nat := 4000
  maxOutputTokens : Nat := 800
  maxCostUsd : ℚ

structure AgentSpec where
  agentType : AgentType
  inputArtifactTypes : List String
  outputArtifactType : String
  budget : AgentBudget

structure ToolBudgetSnapshot where
  runCalls : Nat := 0
  taskCalls : Nat := 0
  scopeCalls : Nat := 0

structure AgentRuntimeRequest where
  spec : AgentSpec
  state : String
  observation : Dict
  inputArtifactType : String
  maxSteps : Option Nat := none
  toolBudget : ToolBudgetSnapshot := {}

structure RuntimeSettings where
  maxAgentSteps : Int := 4
  maxAgentToolCallsPerRun : Int := 4
  maxAgentToolCallsPerTask : Int := 8
  maxAgentToolCallsPerTrip : Int := 40
  maxAgentInputTokens : Int := 6000
  maxAgentOutputTokens : Int := 800
  maxAgentRunCostUsd : ℚ
  llmInputCostPerMillionUsd : ℚ
  llmOutputCostPerMillionUsd : ℚ

inductive StepStatus where
  | finished | policyDenied | validationFailed | succeeded | failed | budgetExceeded
  deriving DecidableEq, Repr

structure AgentRuntimeStep where
  stepIndex : Nat
  status : StepStatus
  reason : Option String := none
  tool : Option String := none
  arguments : Dict := []
  output : Dict := []

/-- The lengths that an `AgentRuntimeStep` allows. -/
def AgentRuntimeStep.valid (step : AgentRuntimeStep) : Bool :=
  step.reason.all (·.length ≤ 300) && step.tool.all (·.length ≤ 80)

inductive AgentRuntimeEvent where
  | inputLoaded
  | modelFallback (stepIndex : Nat) (error : ToolError)
  | decision (stepIndex : Nat) (decision : AgentDecision)
  | toolRequest (stepIndex : Nat) (tool : String) (arguments : Dict)
  | toolResult (stepIndex : Nat) (tool : String) (status : StepStatus) (output : Dict)
  | stateUpdated (payload : Dict)
  | artifactEmitted (artifactType : String)

inductive RunStatus where
  | succeeded | budgetExceeded | toolFailed | stepLimitReached
  deriving DecidableEq, Repr

structure ArtifactEnvelope where
  artifactType : String
  producerAgent : AgentType
  status : RunStatus
  steps : List AgentRuntimeStep

structure AgentRuntimeResult where
  status : RunStatus
  steps : List AgentRuntimeStep
  artifact : ArtifactEnvelope
  inputTokens : Int
  outputTokens : Int
  estimatedCostUsd : ℚ
  modelName : String
  fallbackUsed : Bool
  sharedState : Option Dict := none

/-- The bounds that an `AgentRuntimeResult` checks. -/
def AgentRuntimeResult.valid (result : AgentRuntimeResult) : Bool :=
  0 ≤ result.inputTokens && 0 ≤ result.outputTokens && 0 ≤ result.estimatedCostUsd &&
    result.modelName.length ≤ 100

/-- What an executor returns; `confidence` is `none` where reading it raises. -/
structure RawOutput where
  source : String := ""
  confidence : Option ℚ := some 0
  artifactRef : Option String := none
  data : Dict

/-- Tokens so far and their estimated cost, as the budget check sees them. -/
structure Totals where
  inputTokens : Int
  outputTokens : Int
  estimatedCost : ℚ

/-- What a run has done. -/
inductive Deed where
  | decided (result : DecisionResult) (totals : Totals)
  | executed (tool : String) (arguments : Dict) (succeeded : Bool)

structure RunState where
  observation : Dict
  steps : List AgentRuntimeStep := []
  history : List AgentRuntimeStep := []
  events : List AgentRuntimeEvent := []
  inputTokens : Int := 0
  outputTokens : Int := 0
  fallbackUsed : Bool := false
  modelName : String := "unknown"
  inputCostPerMillionUsd : ℚ := 0
  outputCostPerMillionUsd : ℚ := 0
  /-- History: what the run has done, in order. -/
  deeds : List Deed := []

abbrev AgentRun := EStateM Raised RunState

/-- A decider is shown the context and the steps of the run. -/
abbrev AgentDecider := Dict → List AgentRuntimeStep → Except Raised DecisionResult

abbrev ToolExecutor := String → Dict → List AgentRuntimeStep → Except Raised RawOutput

structure AgentRuntime where
  settings : RuntimeSettings
  decider : AgentDecider
  fallbackDecider : AgentDecider
  /-- `load_context`, with the context loader or without. -/
  loadContext : Dict → List AgentRuntimeStep → Except Raised Dict
  /-- Whether the tool is allowed in the state, why, and whether the user has to confirm it. -/
  policyEvaluator : String → String → Except Raised (Bool × String × Bool)
  modelValidate : ArgumentModel → Dict → Option Dict
  artifactValidator : ArtifactEnvelope → Except Raised Unit
  sharedStateUpdater : AgentRuntimeResult → Except Raised (Option Dict)
  /-- The trace emitter is shown all events up to the new one. -/
  traceEmitter : List AgentRuntimeEvent → Except Raised Unit

/-- `SafeFinishAgentDecider` -/
def safeFinishAgentDecider : AgentDecider := fun _ _ =>
  .ok {
    decision := {
      action := "finish"
      reason := "model unavailable; role-neutral runtime fallback stopped safely" }
    modelName := "runtime-safe-finish-v1" }

/-- `_allow_registered_tool` -/
def allowRegisteredTool (_tool _state : String) : Except Raised (Bool × String × Bool) :=
  .ok (true, "allowed", false)

def ofExcept {α : Type} : Except Raised α → AgentRun α
  | .ok value => pure value
  | .error raised => throw raised

/-- A `ValidationError` -/
def Raised.validation : Raised := .exception .invalidToolArguments

namespace AgentRuntime

/-- `_estimated_cost`; a price of zero counts as none. -/
def estimatedCost (settings : RuntimeSettings) (inputTokens outputTokens : Int)
    (inputCostPerMillionUsd outputCostPerMillionUsd : ℚ) : ℚ :=
  let inputPrice :=
    if inputCostPerMillionUsd ≠ 0 then inputCostPerMillionUsd
    else settings.llmInputCostPerMillionUsd
  let outputPrice :=
    if outputCostPerMillionUsd ≠ 0 then outputCostPerMillionUsd
    else settings.llmOutputCostPerMillionUsd
  (inputTokens * inputPrice + outputTokens * outputPrice) / 1000000

/-- `_model_budget_exceeded` -/
def modelBudgetExceeded (settings : RuntimeSettings) (spec : AgentSpec) (totals : Totals) : Bool :=
  min settings.maxAgentInputTokens spec.budget.maxInputTokens < totals.inputTokens ||
    min settings.maxAgentOutputTokens spec.budget.maxOutputTokens < totals.outputTokens ||
    min settings.maxAgentRunCostUsd spec.budget.maxCostUsd < totals.estimatedCost

/-- `_tool_budget_exceeded` -/
def toolBudgetExceeded (settings : RuntimeSettings) (request : AgentRuntimeRequest)
    (localCalls : Nat) : Bool :=
  let budget := request.toolBudget
  settings.maxAgentToolCallsPerRun ≤ budget.runCalls + localCalls ||
    settings.maxAgentToolCallsPerTask ≤ budget.taskCalls + localCalls ||
    settings.maxAgentToolCallsPerTrip ≤ budget.scopeCalls + localCalls

/-- `min(request.max_steps or settings.max_agent_steps, settings.max_agent_steps, …)` -/
def limit (settings : RuntimeSettings) (request : AgentRuntimeRequest) : Nat :=
  let asked : Int :=
    match request.maxSteps with
    | none | some 0 => settings.maxAgentSteps
    | some steps => steps
  (min asked (min settings.maxAgentSteps request.spec.budget.maxSteps)).toNat

variable (runtime : AgentRuntime) (request : AgentRuntimeRequest) (toolExecutor : ToolExecutor)

/-- `authorize_tool` -/
def authorizeTool (spec : AgentSpec) (tool state : String) : Except Raised (Bool × String × Bool) :=
  let scopes := ((capability tool).map AgentCapability.dataScopes).getD []
  match authorize spec.agentType tool .agentCallable scopes with
  | .error reason => .ok (false, reason, false)
  | .ok _ => runtime.policyEvaluator tool state

/-- `emit_trace` -/
def emitTrace (event : AgentRuntimeEvent) : AgentRun Unit := do
  modify fun run => { run with events := run.events ++ [event] }
  let run ← get
  ofExcept (runtime.traceEmitter run.events)

/-- `call_model`, with the fallback decider after an exception. -/
def decide (stepIndex : Nat) : AgentRun DecisionResult := do
  let run ← get
  let context ← ofExcept (runtime.loadContext run.observation run.history)
  match runtime.decider context run.history with
  | .ok result => pure result
  | .error .cancelled => throw .cancelled
  | .error (.exception error) => do
      modify fun run => { run with fallbackUsed := true }
      runtime.emitTrace (.modelFallback stepIndex error)
      ofExcept (runtime.fallbackDecider context run.history)

/-- The tokens of a decision join the totals; its prices replace those before. -/
def account (result : DecisionResult) : AgentRun Totals :=
  modifyGet fun run =>
    let totals : Totals := {
      inputTokens := run.inputTokens + result.inputTokens
      outputTokens := run.outputTokens + result.outputTokens
      estimatedCost := estimatedCost runtime.settings (run.inputTokens + result.inputTokens)
        (run.outputTokens + result.outputTokens) result.inputCostPerMillionUsd
        result.outputCostPerMillionUsd }
    (totals, { run with
      inputTokens := totals.inputTokens
      outputTokens := totals.outputTokens
      modelName := result.modelName
      inputCostPerMillionUsd := result.inputCostPerMillionUsd
      outputCostPerMillionUsd := result.outputCostPerMillionUsd
      deeds := run.deeds ++ [.decided result totals] })

/-- A step that does not fit its schema raises. -/
def appendStep (step : AgentRuntimeStep) : AgentRun Unit :=
  if step.valid then modify fun run => { run with steps := run.steps ++ [step] }
  else throw .validation

/-- A step on a tool, which the next decision is shown. -/
def recordTool (step : AgentRuntimeStep) (tool : String) : AgentRun Unit := do
  appendStep step
  modify fun run => { run with
    history := run.history ++ [step]
    observation := (run.observation.put "last_tool" (.str tool)).put "last_output"
      (.object step.output) }
  runtime.emitTrace (.toolResult step.stepIndex tool step.status step.output)

/-- The envelope that `tool_result_success` makes of an output, unless it does not fit. -/
def toolResultSuccess (raw : RawOutput) : Except ToolError Dict := do
  let given ← raw.confidence.elim (.error .upstreamError) .ok
  let confidence := if given = 0 then 1 else given
  if confidence < 0 ∨ 1 < confidence ∨ raw.artifactRef.any (128 < ·.length) then
    .error .invalidToolArguments
  else .ok [("success", .bool true), ("error_code", .null), ("retryable", .bool false),
    ("source", .str (if raw.source = "" then "mapgo" else raw.source)), ("expires_at", .null),
    ("confidence", .number confidence), ("artifact_ref", raw.artifactRef.elim .null .str),
    ("data", .object raw.data)]

/-- `tool_result_error` -/
def toolResultError (error : ToolError) (retryable : Bool) (data : Dict := []) : Dict :=
  [("success", .bool false), ("error_code", .str error.value), ("retryable", .bool retryable),
    ("source", .str "mapgo"), ("expires_at", .null), ("confidence", .number 0),
    ("artifact_ref", .null), ("data", .object data)]

def note (deed : Deed) : AgentRun Unit :=
  modify fun run => { run with deeds := run.deeds ++ [deed] }

/-- `execute_tool`, with the codes of its exceptions. -/
def executeTool (tool : String) (arguments : Dict) : AgentRun (Except ToolError Dict) := do
  let run ← get
  match toolExecutor tool arguments run.history with
  | .ok raw => do
      let output := toolResultSuccess raw
      note (.executed tool arguments output.isOk)
      pure output
  | .error (.exception error) => do
      note (.executed tool arguments false)
      pure (.error error)
  | .error .cancelled => do
      note (.executed tool arguments false)
      throw .cancelled

/-- The step names a tool. -/
def usesTool (step : AgentRuntimeStep) : Bool := step.tool.any (· ≠ "")

/-- What is made of the decision to call a tool; the answer ends the loop. -/
def callTool (stepIndex : Nat) (decision : AgentDecision) : AgentRun (Option RunStatus) := do
  let tool := decision.tool.getD "None"
  runtime.emitTrace (.toolRequest stepIndex tool decision.arguments)
  let (allowed, reason, confirmationRequired) ←
    ofExcept (runtime.authorizeTool request.spec tool request.state)
  let run ← get
  if toolBudgetExceeded runtime.settings request (run.steps.countP usesTool) then do
    appendStep {
      stepIndex := stepIndex
      status := .budgetExceeded
      reason := some "agent_tool_call_budget"
      tool := some tool
      arguments := decision.arguments }
    pure (some .budgetExceeded)
  else if !allowed || confirmationRequired then do
    let denial := if allowed then "requires_user_confirmation" else reason
    runtime.recordTool {
      stepIndex := stepIndex
      status := .policyDenied
      reason := some denial
      tool := some tool
      arguments := decision.arguments
      output := [("reason", .str denial)] } tool
    pure none
  else
    match validateToolArguments runtime.modelValidate tool decision.arguments with
    | none => do
        runtime.recordTool {
          stepIndex := stepIndex
          status := .validationFailed
          reason := some "invalid_tool_arguments"
          tool := some tool
          arguments := decision.arguments
          output := toolResultError .invalidToolArguments false [("tool", .str tool)] } tool
        pure none
    | some arguments => do
        match ← executeTool toolExecutor tool arguments with
        | .ok output => do
            runtime.recordTool {
              stepIndex := stepIndex
              status := .succeeded
              tool := some tool
              arguments := arguments
              output := output } tool
            pure none
        | .error error => do
            runtime.recordTool {
              stepIndex := stepIndex
              status := .failed
              reason := some error.value
              tool := some tool
              arguments := arguments
              output := toolResultError error (error = .upstreamTimeout) } tool
            pure (some .toolFailed)

/-- One round of the loop. -/
def iteration (stepIndex : Nat) : AgentRun (Option RunStatus) := do
  let result ← runtime.decide stepIndex
  let totals ← runtime.account result
  if modelBudgetExceeded runtime.settings request.spec totals then do
    appendStep {
      stepIndex := stepIndex
      status := .budgetExceeded
      reason := some "agent_token_or_cost_budget" }
    pure (some .budgetExceeded)
  else do
    runtime.emitTrace (.decision stepIndex result.decision)
    if result.decision.action = "finish" then do
      appendStep {
        stepIndex := stepIndex
        status := .finished
        reason := some result.decision.reason }
      pure (some .succeeded)
    else runtime.callTool request toolExecutor stepIndex result.decision

/-- `validate_artifact` -/
def validateArtifact (spec : AgentSpec) (artifact : ArtifactEnvelope) : AgentRun Unit := do
  if artifact.producerAgent ≠ spec.agentType ∨
      artifact.artifactType ≠ spec.outputArtifactType then
    throw (.exception .upstreamError)
  ofExcept (runtime.artifactValidator artifact)

/-- The result of the state in which the loop ends. -/
def result (settings : RuntimeSettings) (artifact : ArtifactEnvelope) (run : RunState) :
    AgentRuntimeResult where
  status := artifact.status
  steps := run.steps
  artifact := artifact
  inputTokens := run.inputTokens
  outputTokens := run.outputTokens
  estimatedCostUsd := estimatedCost settings run.inputTokens run.outputTokens
    run.inputCostPerMillionUsd run.outputCostPerMillionUsd
  modelName := run.modelName
  fallbackUsed := run.fallbackUsed

/-- What follows the loop. -/
def conclude (status : RunStatus) : AgentRun AgentRuntimeResult := do
  let run ← get
  let artifact : ArtifactEnvelope := {
    artifactType := request.spec.outputArtifactType
    producerAgent := request.spec.agentType
    status := status
    steps := run.steps }
  runtime.validateArtifact request.spec artifact
  let result := result runtime.settings artifact run
  if !result.valid then throw .validation
  let sharedState ← ofExcept (runtime.sharedStateUpdater result)
  match sharedState with
  | none => pure ()
  | some payload => runtime.emitTrace (.stateUpdated payload)
  runtime.emitTrace (.artifactEmitted artifact.artifactType)
  pure { result with sharedState := sharedState }

/-- `AgentRuntime.execute` -/
def execute : AgentRun AgentRuntimeResult := do
  if request.inputArtifactType ∉ request.spec.inputArtifactTypes then
    throw (.exception .upstreamError)
  runtime.emitTrace .inputLoaded
  let status ← rounds (runtime.iteration request toolExecutor) .stepLimitReached 0
    (limit runtime.settings request)
  runtime.conclude request status

/-- A run and the state that it ends in. -/
def run : EStateM.Result Raised RunState AgentRuntimeResult :=
  runtime.execute request toolExecutor { observation := request.observation }

/-- What a run has done, however it ends. -/
def deeds : List Deed :=
  match runtime.run request toolExecutor with
  | .ok _ s => s.deeds
  | .error _ s => s.deeds

/-- The status of a run that returns. -/
def status : Option RunStatus :=
  match runtime.run request toolExecutor with
  | .ok result _ => some result.status
  | .error _ _ => none

end AgentRuntime

/-- `COMPANION_AGENT_SPEC` -/
def companionAgentSpec : AgentSpec where
  agentType := .companion
  inputArtifactTypes := ["trip_observation"]
  outputArtifactType := "companion_action_report"
  budget := { maxSteps := 4, maxInputTokens := 6000, maxCostUsd := 1 / 20 }

/-- The companion's runtime under the default settings, with nothing attached. -/
def companionRuntime (decider : AgentDecider) : AgentRuntime where
  settings := {
    maxAgentRunCostUsd := 1 / 20
    llmInputCostPerMillionUsd := 2 / 5
    llmOutputCostPerMillionUsd := 8 / 5 }
  decider := decider
  fallbackDecider := safeFinishAgentDecider
  loadContext := fun observation _ => .ok observation
  policyEvaluator := allowRegisteredTool
  modelValidate := fun _ arguments => some arguments
  artifactValidator := fun _ => .ok ()
  sharedStateUpdater := fun _ => .ok none
  traceEmitter := fun _ => .ok ()

def companionRequest : AgentRuntimeRequest where
  spec := companionAgentSpec
  state := "active"
  observation := []
  inputArtifactType := "trip_observation"

/-- A model that reads the state of the trip, and fails when it is asked again. -/
def failingModel : AgentDecider := fun _ history =>
  if history.isEmpty then .ok {
    decision := { action := "call_tool", tool := some "get_trip_state", reason := "observe" }
    inputTokens := 2000
    outputTokens := 100
    inputCostPerMillionUsd := 2
    outputCostPerMillionUsd := 8 }
  else .error (.exception .upstreamTimeout)

def answersNothing : ToolExecutor := fun _ _ _ => .ok { data := [] }

end MapGo.Agents
